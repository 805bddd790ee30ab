/-
  CustomDbms.Server.TwoPhaseCommit
  ────────────────────────────────
  **TWO-PHASE COMMIT: WHO EXECUTES WHAT** (`ExecuteTwoPhaseCommit` with the
  PREPARE_TX, COMMIT_TX and ABORT_TX of the nodes).

  Only a COMMIT executes a transaction, and it takes the transaction out of
  the node's pending ones.  The coordinator sends no COMMIT before every
  PREPARE has been answered with 200, and one COMMIT to each node.
-/
import CustomDbms.Server.StorageCluster

namespace CustomDbms.Server

open CustomDbms.Common CustomDbms.Lib CustomDbms.Parser CustomDbms.Catalog CustomDbms.Network
open CustomDbms.Execution CustomDbms.Core CustomDbms.Runtime

/-! ## §1. The three messages. -/

/-- The request with which a node is asked to prepare. -/
def prepareRequest (request : RequestEnvelope) (txId sql : Str) : RequestEnvelope :=
  { request with payload := str "CLUSTER PREPARE_TX " ++ txId ++ str " " ++ sql }

/-- The request with which a node is told to commit. -/
def commitRequest (request : RequestEnvelope) (txId : Str) : RequestEnvelope :=
  { request with payload := str "CLUSTER COMMIT_TX " ++ txId }

/-- The request with which a node is told to abort. -/
def abortRequest (request : RequestEnvelope) (txId : Str) : RequestEnvelope :=
  { request with payload := str "CLUSTER ABORT_TX " ++ txId }

section Messages

variable {ν : Type} (w : World ν) (ctx : RequestContext) (s : System ν) (request : RequestEnvelope)

theorem handleRequest_prepare (txId sql : Str) :
    handleRequest w ctx s (prepareRequest request txId sql)
      = ({ s with server :=
            (prepareTx s.server (prepareRequest request txId sql) (txId ++ str " " ++ sql)).1 },
          (prepareTx s.server (prepareRequest request txId sql) (txId ++ str " " ++ sql)).2) := by
  have hprepare : stripStart (str "CLUSTER PREPARE_TX ")
      (str "CLUSTER PREPARE_TX " ++ txId ++ str " " ++ sql) = some (txId ++ str " " ++ sql) := by
    rw [List.append_assoc, List.append_assoc, stripStart_append, List.append_assoc]
  unfold handleRequest parseClusterCommand prepareRequest
  rw [hprepare]

theorem stripStart_prepare_commit (txId : Str) :
    stripStart (str "CLUSTER PREPARE_TX ") (str "CLUSTER COMMIT_TX " ++ txId) = none := rfl

theorem handleRequest_commit (txId : Str) :
    handleRequest w ctx s (commitRequest request txId)
      = ({ s with server := (commitTx ctx s.server txId).1 }, (commitTx ctx s.server txId).2) := by
  unfold handleRequest parseClusterCommand commitRequest
  rw [stripStart_prepare_commit, stripStart_append]

theorem handleRequest_abort (txId : Str) :
    handleRequest w ctx s (abortRequest request txId)
      = ({ s with server := (abortTx s.server txId).1 }, (abortTx s.server txId).2) := by
  have hprepare : stripStart (str "CLUSTER PREPARE_TX ") (str "CLUSTER ABORT_TX " ++ txId)
      = none := rfl
  have hcommit : stripStart (str "CLUSTER COMMIT_TX ") (str "CLUSTER ABORT_TX " ++ txId)
      = none := rfl
  unfold handleRequest parseClusterCommand abortRequest
  rw [hprepare, hcommit, stripStart_append]

end Messages

theorem committedBy_prepare (server : EntrypointServer) (request : RequestEnvelope)
    (txId sql : Str) : committedBy server (prepareRequest request txId sql) = none := by
  have hcommit : ∀ rest, stripStart (str "CLUSTER COMMIT_TX ") (str "CLUSTER PREPARE_TX " ++ rest)
      = none := fun rest => rfl
  unfold committedBy prepareRequest
  rw [List.append_assoc, List.append_assoc, hcommit]

/-- The request tells a node to commit the transaction. -/
def Commits (txId : Str) (request : RequestEnvelope) : Prop :=
  request.payload = str "CLUSTER COMMIT_TX " ++ txId

/-- The message asks a node to prepare the transaction. -/
def IsPrepare (txId : Str) (m : Message) : Prop :=
  ∃ sql, m.request.payload = str "CLUSTER PREPARE_TX " ++ txId ++ str " " ++ sql

/-- The executions of a transaction. -/
def Nodes.runsOf (n : Nodes) (txId : Str) : List Execution :=
  n.executed.filter fun x => decide (x.txId = txId)

/-- How often a node has executed a transaction. -/
def Nodes.runsAt (n : Nodes) (txId : Str) (endpoint : Endpoint) : Nat :=
  ((n.runsOf txId).filter fun x => decide (x.endpoint = endpoint)).length

theorem commits_of_committedBy {server : EntrypointServer} {request : RequestEnvelope}
    {p : Str × PendingClusterTransaction} (h : committedBy server request = some p) :
    Commits p.1 request := by
  unfold committedBy at h
  split at h
  · rename_i txId hstrip
    split at h
    · cases h
    · obtain ⟨pending, -, rfl⟩ := Option.map_eq_some_iff.mp h
      exact stripStart_eq_some.mp hstrip
  · cases h

section Runs

variable {c : Conditions} {txId : Str}

/-- Only a COMMIT of the transaction executes it. -/
theorem runsOf_handle {request : RequestEnvelope} (h : ¬ Commits txId request) (n : Nodes)
    (endpoint : Endpoint) (moment : Moment) :
    (n.handle c endpoint moment request).1.runsOf txId = n.runsOf txId := by
  unfold Nodes.handle Nodes.runsOf
  cases hby : committedBy (n.servers endpoint) request with
  | none => simp
  | some p =>
      have hne : p.1 ≠ txId := by
        rintro rfl
        exact h (commits_of_committedBy hby)
      simp [hne]

/-- **One request executes a transaction at most once, and on its node.** -/
theorem runsAt_handle (n : Nodes) (endpoint : Endpoint) (moment : Moment)
    (request : RequestEnvelope) (e : Endpoint) :
    (n.handle c endpoint moment request).1.runsAt txId e
      ≤ n.runsAt txId e + if e = endpoint then 1 else 0 := by
  unfold Nodes.handle Nodes.runsAt Nodes.runsOf
  cases hby : committedBy (n.servers endpoint) request with
  | none => simp
  | some p =>
      simp only [Option.map_some, Option.toList_some, List.filter_append, List.length_append]
      refine Nat.add_le_add_left ?_ _
      by_cases ht : p.1 = txId
      · by_cases he : endpoint = e
        · simp [ht, he]
        · simp [ht, he]
      · simp [ht]

theorem runsOf_handleAll {fs : List Foreign} (h : ∀ f ∈ fs, ¬ Commits txId f.request) (n : Nodes) :
    (Nodes.handleAll c n fs).runsOf txId = n.runsOf txId := by
  induction fs generalizing n with
  | nil => rfl
  | cons f fs ih =>
      rw [Nodes.handleAll, ih (fun g hg => h g (by simp [hg])),
        runsOf_handle (h f (by simp))]

theorem sent_handleAll (fs : List Foreign) (n : Nodes) :
    (Nodes.handleAll c n fs).sent = n.sent := by
  induction fs generalizing n with
  | nil => rfl
  | cons f fs ih => rw [Nodes.handleAll, ih]; rfl

/-- Nobody else commits the transaction. -/
def OthersLeave (c : Conditions) (txId : Str) : Prop :=
  ∀ k, ∀ f ∈ (c.tick k).others, ¬ Commits txId f.request

theorem sent_forward (n : Nodes) (node : StorageNodeEndpoint) (request : RequestEnvelope) :
    (n.forward c node request).1.sent
      = n.sent ++ [⟨node.endpoint, request, (n.forward c node request).2⟩] := by
  have hdeliver : ∀ (m : Nodes) tick endpoint, (m.deliver c tick endpoint request).1.sent
      = m.sent := by
    intro m tick endpoint
    unfold Nodes.deliver
    split
    · rfl
    · rfl
    · rfl
  unfold Nodes.forward
  dsimp only
  rw [hdeliver, sent_handleAll]

theorem runsOf_forward {request : RequestEnvelope} (h : ¬ Commits txId request)
    (hleave : OthersLeave c txId) (n : Nodes) (node : StorageNodeEndpoint) :
    (n.forward c node request).1.runsOf txId = n.runsOf txId := by
  have hdeliver : ∀ (m : Nodes) tick endpoint, (m.deliver c tick endpoint request).1.runsOf txId
      = m.runsOf txId := by
    intro m tick endpoint
    unfold Nodes.deliver
    split
    · rfl
    · exact runsOf_handle h ..
    · exact runsOf_handle h ..
  unfold Nodes.forward
  dsimp only
  exact (hdeliver _ _ _).trans (runsOf_handleAll (hleave n.clock) _)

theorem runsAt_forward (hleave : OthersLeave c txId) (n : Nodes) (node : StorageNodeEndpoint)
    (request : RequestEnvelope) (e : Endpoint) :
    (n.forward c node request).1.runsAt txId e
      ≤ n.runsAt txId e + if e = node.endpoint then 1 else 0 := by
  have hdeliver : ∀ (m : Nodes) tick, (m.deliver c tick node.endpoint request).1.runsAt txId e
      ≤ m.runsAt txId e + if e = node.endpoint then 1 else 0 := by
    intro m tick
    unfold Nodes.deliver
    split
    · exact Nat.le_add_right _ _
    · exact runsAt_handle ..
    · exact runsAt_handle ..
  have hbefore : (Nodes.handleAll c { n with clock := n.clock + 1 } (c.tick n.clock).others).runsAt
      txId e = n.runsAt txId e := by
    unfold Nodes.runsAt
    rw [runsOf_handleAll (hleave n.clock)]
    rfl
  rw [← hbefore]
  exact hdeliver _ _

end Runs

/-! ## §3. Abort safety. -/

section Safety

variable {c : Conditions} {txId : Str} (request : RequestEnvelope)

theorem not_commits_prepare (sql : Str) : ¬ Commits txId (prepareRequest request txId sql) := by
  intro h
  have hstrip := stripStart_eq_some.mpr h
  unfold prepareRequest at hstrip
  rw [List.append_assoc, List.append_assoc] at hstrip
  cases hstrip

theorem not_commits_abort : ¬ Commits txId (abortRequest request txId) := by
  intro h
  have hstrip := stripStart_eq_some.mpr h
  cases hstrip

theorem not_isPrepare_commit (endpoint : Endpoint) (answer : Option ResponseEnvelope) :
    ¬ IsPrepare txId ⟨endpoint, commitRequest request txId, answer⟩ := by
  rintro ⟨sql, h⟩
  rw [List.append_assoc, List.append_assoc] at h
  have hstrip := stripStart_eq_some.mpr h
  cases hstrip

/-- Every node that was asked to prepare the transaction answered with 200. -/
def PreparesAnswered (txId : Str) (n : Nodes) : Prop :=
  ∀ m ∈ n.sent, IsPrepare txId m → answered m.answer = true

theorem PreparesAnswered.forward {n : Nodes} (h : PreparesAnswered txId n)
    {node : StorageNodeEndpoint} {r : RequestEnvelope}
    (hr : IsPrepare txId ⟨node.endpoint, r, (n.forward c node r).2⟩ →
      answered (n.forward c node r).2 = true) :
    PreparesAnswered txId (n.forward c node r).1 := by
  intro m hm hprepare
  rw [sent_forward] at hm
  rcases List.mem_append.mp hm with hm | hm
  · exact h m hm hprepare
  · obtain rfl := List.mem_singleton.mp hm
    exact hr hprepare

/-- **The aborts execute nothing.** -/
theorem abortLoop_runs (hleave : OthersLeave c txId) (l : List (StorageNodeEndpoint × Str))
    (n : Nodes) :
    ∃ n', abortLoop (clusterWorld c) request txId l n = (n', .ok ()) ∧
      n'.runsOf txId = n.runsOf txId := by
  induction l generalizing n with
  | nil => exact ⟨n, rfl, rfl⟩
  | cons p l ih =>
      obtain ⟨n', hloop, hruns⟩ := ih (n.forward c p.1 (abortRequest request txId)).1
      refine ⟨n', ?_, hruns.trans (runsOf_forward (not_commits_abort request) hleave n p.1)⟩
      rw [abortLoop, Net.forward_bind]
      exact hloop

/-- **The first phase executes nothing**, and ends with true only where every
node has prepared. -/
theorem prepareLoop_runs (hleave : OthersLeave c txId) (l done : List (StorageNodeEndpoint × Str))
    (n : Nodes) :
    ∃ n' ready, prepareLoop (clusterWorld c) request txId done l n = (n', .ok ready) ∧
      n'.runsOf txId = n.runsOf txId ∧
      (ready = true → PreparesAnswered txId n → PreparesAnswered txId n') := by
  induction l generalizing done n with
  | nil => exact ⟨n, true, rfl, rfl, fun _ h => h⟩
  | cons p l ih =>
      obtain ⟨node, sql⟩ := p
      have hrun := runsOf_forward (not_commits_prepare request sql) hleave n node
      rw [prepareLoop, Net.forward_bind]
      show ∃ n' ready, (if answered (n.forward c node (prepareRequest request txId sql)).2
        then _ else _ : Net Nodes Bool) (n.forward c node (prepareRequest request txId sql)).1
          = (n', .ok ready) ∧ _
      by_cases hanswer : answered (n.forward c node (prepareRequest request txId sql)).2 = true
      · rw [if_pos hanswer]
        obtain ⟨n', ready, hloop, hruns, hall⟩ := ih (done ++ [(node, sql)])
          (n.forward c node (prepareRequest request txId sql)).1
        exact ⟨n', ready, hloop, hruns.trans hrun,
          fun hready hn => hall hready (hn.forward fun _ => hanswer)⟩
      · rw [if_neg hanswer]
        obtain ⟨n', hloop, hruns⟩ := abortLoop_runs request hleave done
          (n.forward c node (prepareRequest request txId sql)).1
        refine ⟨n', false, ?_, hruns.trans hrun, fun hready => by cases hready⟩
        rw [Net.bind_of_ok hloop]
        rfl

/-- **The second phase executes the transaction at most once on every node of
the list.** -/
theorem commitLoop_runs (hleave : OthersLeave c txId) {l : List (StorageNodeEndpoint × Str)}
    (hdistinct : (l.map fun p => p.1.endpoint).Nodup) (n : Nodes) :
    ∃ n' done, commitLoop (clusterWorld c) request txId l n = (n', .ok done) ∧
      (∀ e, n'.runsAt txId e
        ≤ n.runsAt txId e + if e ∈ l.map (fun p => p.1.endpoint) then 1 else 0) ∧
      (PreparesAnswered txId n → PreparesAnswered txId n') := by
  induction l generalizing n with
  | nil => exact ⟨n, true, rfl, fun e => by simp, fun h => h⟩
  | cons p l ih =>
      obtain ⟨node, sql⟩ := p
      have hstep := runsAt_forward hleave n node (commitRequest request txId)
      have hkeeps : PreparesAnswered txId n →
          PreparesAnswered txId (n.forward c node (commitRequest request txId)).1 :=
        fun hn => hn.forward fun hprepare => absurd hprepare (not_isPrepare_commit request _ _)
      rw [List.map_cons, List.nodup_cons] at hdistinct
      rw [commitLoop, Net.forward_bind]
      show ∃ n' done, (if answered (n.forward c node (commitRequest request txId)).2
        then _ else _ : Net Nodes Bool) (n.forward c node (commitRequest request txId)).1
          = (n', .ok done) ∧ _
      by_cases hanswer : answered (n.forward c node (commitRequest request txId)).2 = true
      · rw [if_pos hanswer]
        obtain ⟨n', done, hloop, hruns, hprep⟩ := ih hdistinct.2
          (n.forward c node (commitRequest request txId)).1
        refine ⟨n', done, hloop, fun e => ?_, fun hn => hprep (hkeeps hn)⟩
        -- the node's endpoint is not among the rest, so it is told once
        have hrest := hruns e
        have hone := hstep e
        by_cases he : e = node.endpoint
        · rw [if_neg (by rw [he]; exact hdistinct.1)] at hrest
          rw [if_pos he] at hone
          rw [if_pos (by simp [he])]
          omega
        · rw [if_neg he] at hone
          by_cases hmem : e ∈ l.map fun p => p.1.endpoint
          · rw [if_pos hmem] at hrest
            rw [if_pos (by simp [hmem])]
            omega
          · rw [if_neg hmem] at hrest
            rw [if_neg (by simp only [List.map_cons, List.mem_cons, he, hmem, or_self, not_false_eq_true])]
            omega
      · rw [if_neg hanswer]
        refine ⟨_, false, rfl, fun e => ?_, hkeeps⟩
        have hone := hstep e
        by_cases he : e = node.endpoint
        · rw [if_pos he] at hone
          rw [if_pos (by simp [he])]
          omega
        · rw [if_neg he] at hone
          omega

end Safety

section Phases

variable {ν : Type} {w : World ν} {prepared : List (StorageNodeEndpoint × Str)}
  {request : RequestEnvelope} {net net₁ : ν}

/-- A first phase that fails ends the commit. -/
theorem executeTwoPhaseCommit_refused
    (hprepare : prepareLoop w request (w.newGuid net).2 [] prepared (w.newGuid net).1
      = (net₁, .ok false)) :
    executeTwoPhaseCommit w prepared request net = (net₁, .ok none) := by
  rw [executeTwoPhaseCommit, Net.newGuid_bind, Net.bind_of_ok hprepare]
  rfl

/-- **After a first phase that succeeds the second one decides.** -/
theorem executeTwoPhaseCommit_prepared {net₂ : ν} {done : Bool}
    (hprepare : prepareLoop w request (w.newGuid net).2 [] prepared (w.newGuid net).1
      = (net₁, .ok true))
    (hcommit : commitLoop w request (w.newGuid net).2 prepared net₁ = (net₂, .ok done)) :
    executeTwoPhaseCommit w prepared request net
      = (net₂, .ok (if done then some ⟨200, str "2pc committed"⟩ else none)) := by
  rw [executeTwoPhaseCommit, Net.newGuid_bind, Net.bind_of_ok hprepare, if_pos rfl,
    Net.bind_of_ok hcommit]
  cases done with
  | true => rfl
  | false => rfl

end Phases

/-- The id is new: nobody has executed the transaction, been asked to prepare
it, or is told by others to commit it. -/
structure FreshTx (c : Conditions) (n : Nodes) (txId : Str) : Prop where
  unexecuted : ∀ x ∈ n.executed, x.txId ≠ txId
  unprepared : ∀ m ∈ n.sent, ¬ IsPrepare txId m
  others : OthersLeave c txId

/-- **Abort safety, and execution at most once**: over distinct endpoints, with
any failures and any requests of others in between and afterwards, a
transaction some node did not prepare is executed nowhere, and no transaction
is executed twice on a node. -/
theorem twoPhaseCommit_abort_safe {c : Conditions} {n : Nodes}
    {prepared : List (StorageNodeEndpoint × Str)} (request : RequestEnvelope)
    (hdistinct : (prepared.map fun p => p.1.endpoint).Nodup)
    (hfresh : FreshTx c n (newGuidV4 (c.drawn n.guids))) {later : List Foreign}
    (hlater : ∀ f ∈ later, ¬ Commits (newGuidV4 (c.drawn n.guids)) f.request) :
    let txId := newGuidV4 (c.drawn n.guids)
    let final :=
      Nodes.handleAll c (executeTwoPhaseCommit (clusterWorld c) prepared request n).1 later
    ((∃ m ∈ final.sent, IsPrepare txId m ∧ answered m.answer = false) →
      ∀ x ∈ final.executed, x.txId ≠ txId) ∧
    ∀ endpoint, final.runsAt txId endpoint ≤ 1 := by
  intro txId final
  have hnone : ({ n with guids := n.guids + 1 } : Nodes).runsOf txId = [] :=
    List.filter_eq_nil_iff.mpr fun x hx => by simpa using hfresh.unexecuted x hx
  have hstart : PreparesAnswered txId { n with guids := n.guids + 1 } :=
    fun m hm hprepare => absurd hprepare (hfresh.unprepared m hm)
  obtain ⟨n₁, ready, hprepare, hruns₁, hall₁⟩ := prepareLoop_runs request hfresh.others prepared []
    { n with guids := n.guids + 1 }
  rw [hnone] at hruns₁
  cases ready with
  | false =>
      have hend : (executeTwoPhaseCommit (clusterWorld c) prepared request n).1 = n₁ := by
        rw [executeTwoPhaseCommit_refused hprepare]
      have hfinal : final.runsOf txId = [] := by
        show (Nodes.handleAll c _ later).runsOf txId = []
        rw [runsOf_handleAll hlater, hend, hruns₁]
      refine ⟨fun _ x hx => ?_, fun endpoint => ?_⟩
      · simpa using List.filter_eq_nil_iff.mp hfinal x hx
      · rw [Nodes.runsAt, hfinal]
        simp
  | true =>
      obtain ⟨n₂, done, hcommit, hruns₂, hall₂⟩ := commitLoop_runs request hfresh.others hdistinct n₁
      have hend : (executeTwoPhaseCommit (clusterWorld c) prepared request n).1 = n₂ := by
        rw [executeTwoPhaseCommit_prepared hprepare hcommit]
      refine ⟨?_, fun endpoint => ?_⟩
      · rintro ⟨m, hm, hprepared, hfails⟩
        have hsent : m ∈ n₂.sent := by
          rw [← hend, ← sent_handleAll later]
          exact hm
        rw [hall₂ (hall₁ rfl hstart) m hsent hprepared] at hfails
        cases hfails
      · have hfinal : final.runsOf txId = n₂.runsOf txId := by
          show (Nodes.handleAll c _ later).runsOf txId = _
          rw [runsOf_handleAll hlater, hend]
        have hzero : n₁.runsAt txId endpoint = 0 := by
          rw [Nodes.runsAt, hruns₁]
          rfl
        have hle := hruns₂ endpoint
        rw [Nodes.runsAt, hfinal]
        rw [hzero] at hle
        refine hle.trans ?_
        split <;> omega

/-! ## §4. Two nodes. -/

/-- A storage node as it starts. -/
def storageNode : EntrypointServer := { coordinator.server with storageNodes := [] }

/-- Nodes that have just started. -/
def startedNodes : Nodes := ⟨fun _ => storageNode, 0, 0, [], []⟩

/-- A moment without a failure of its own. -/
def quietMoment : Moment := ⟨quietContext, fun _ => 0⟩

/-- The deliveries of the first messages, later ones arriving, and the requests
of others before the second message. -/
def conditionsOf (deliveries : List Delivery) (others : List Foreign) : Conditions where
  tick := fun k =>
    ⟨if k = 1 then others else [], (deliveries[k]?).getD .answered, quietMoment⟩
  drawn := fun k _ => Fin.ofNat 256 k
  hashes := nodelessWorld.hashes
  hmac := nodelessWorld.hmac

/-- One statement for both nodes. -/
def onBoth (sql : String) : List (StorageNodeEndpoint × Str) :=
  twoNodes.map fun node => (node, str sql)

/-- Somebody else's transaction, prepared and committed on the first node. -/
def otherTransaction : List Foreign :=
  [⟨(str "127.0.0.1", 4556), quietMoment,
      prepareRequest selectAll (str "7") (str "CREATE DATABASE e;")⟩,
    ⟨(str "127.0.0.1", 4556), quietMoment, commitRequest selectAll (str "7")⟩]

theorem otherTransaction_other : ∀ f ∈ otherTransaction, f.request.payload
    ≠ str "CLUSTER COMMIT_TX " ++ newGuidV4 fun _ => Fin.ofNat 256 0 := by
  decide +kernel

theorem freshTx_started (deliveries : List Delivery) :
    FreshTx (conditionsOf deliveries otherTransaction) startedNodes
      (newGuidV4 ((conditionsOf deliveries otherTransaction).drawn 0)) where
  unexecuted := fun x hx => by cases hx
  unprepared := fun m hm => by cases hm
  others := by
    intro k f hf
    unfold conditionsOf at hf
    dsimp only at hf
    split at hf
    · exact otherTransaction_other f hf
    · cases hf

theorem twoPhaseCommit_abort_safe_unreached :
    let c := conditionsOf [.answered, .lost] otherTransaction
    let final := Nodes.handleAll c
      (executeTwoPhaseCommit (clusterWorld c) (onBoth "CREATE DATABASE d;") selectAll startedNodes).1
      otherTransaction
    ((∃ m ∈ final.sent, IsPrepare (newGuidV4 (c.drawn 0)) m ∧ answered m.answer = false) →
      ∀ x ∈ final.executed, x.txId ≠ newGuidV4 (c.drawn 0)) ∧
    ∀ endpoint, final.runsAt (newGuidV4 (c.drawn 0)) endpoint ≤ 1 :=
  twoPhaseCommit_abort_safe selectAll (by decide) (freshTx_started [.answered, .lost])
    otherTransaction_other

end CustomDbms.Server
