/-
  CustomDbms.Server.Heartbeat
  ───────────────────────────
  **THE HEARTBEAT OF THE CLUSTER** (`src/server/entrypoint.cpp`:
  `RunHeartbeatCycle`, `RestartManagedNode`).

  A cycle copies the node list, pings the nodes of the copy without the lock,
  and then counts failures in the list.  What it keeps of a failure is the
  position in the copy, while ADD_NODE and REMOVE_NODE may have changed the
  list in between.

    • `runHeartbeatCycle` — the function, where nothing comes between;
    • `heartbeat` — the steps of a cycle among the membership requests;
    • `heartbeat_blames_iff` — the counts and the restarts are those of the
      nodes themselves exactly where positions still agree with nodes;
    • `attributed_of_undisturbed` — they do where no node leaves in a cycle.
-/
import CustomDbms.Lib.Runs
import CustomDbms.Server.Entrypoint

namespace CustomDbms.Server

open CustomDbms.Common CustomDbms.Lib CustomDbms.Network

/-! ## §1. The code. -/

/-- The request of a heartbeat. -/
def pingRequest : RequestEnvelope := ⟨str "__cluster_heartbeat__", [], str "CLUSTER PING"⟩

/-- A node is healthy if it answers `pong`. -/
def healthy : Option ResponseEnvelope → Bool
  | some response => response.statusCode = 200 && response.payload = str "pong"
  | none => false

/-- `RestartManagedNode`; `forked` says whether `fork` gave a child. -/
def restartManagedNode (forked : Bool) (node : StorageNodeEndpoint) : Bool :=
  if !node.managed then false
  else if node.host ≠ str "127.0.0.1" ∧ node.host ≠ str "localhost" then false
  else forked

/-- One node in the second loop: the node, and what `RestartManagedNode`
returned where it was called. -/
def judge (forked isDead : Bool) (node : StorageNodeEndpoint) :
    StorageNodeEndpoint × Option Bool :=
  if !isDead then ({ node with failCount := 0 }, none)
  else
    let node := { node with failCount := node.failCount + 1 }
    if node.managed = true ∧ 3 ≤ node.failCount then
      if restartManagedNode forked node then ({ node with failCount := 0 }, some true)
      else (node, some false)
    else (node, none)

/-- The second loop. -/
def judgeAll (forks : Nat → Bool) (deadIndices : List Nat) (nodes : List StorageNodeEndpoint) :
    List (StorageNodeEndpoint × Option Bool) :=
  nodes.mapIdx fun index node => judge (forks index) (deadIndices.contains index) node

variable {ν : Type} (w : World ν)

/-- The first loop, from position `index` on. -/
def pingLoop : Nat → List StorageNodeEndpoint → List Nat → ν → ν × List Nat
  | _, [], deadIndices, net => (net, deadIndices)
  | index, node :: rest, deadIndices, net =>
      let r := w.forward net node pingRequest
      pingLoop (index + 1) rest
        (if healthy r.2 then deadIndices else deadIndices ++ [index]) r.1

/-- `RunHeartbeatCycle`, where no request comes between. -/
def runHeartbeatCycle (forks : Nat → Bool) (s : System ν) : System ν × Bool :=
  let pinged := pingLoop w 0 s.server.storageNodes [] s.net
  let judged := judgeAll forks pinged.2 s.server.storageNodes
  (⟨{ s.server with storageNodes := judged.map (·.1) }, pinged.1⟩,
    judged.any fun p => p.2 = some true)

/-- What ADD_NODE does under the lock. -/
def withNode (nodes : List StorageNodeEndpoint) (endpoint : Endpoint) (managed : Bool) :
    List StorageNodeEndpoint :=
  if nodes.any (·.isAt endpoint) then nodes
  else nodes ++ [⟨endpoint.1, endpoint.2, managed, 0⟩]

/-- What REMOVE_NODE does under the lock. -/
def withoutNode (nodes : List StorageNodeEndpoint) (endpoint : Endpoint) :
    List StorageNodeEndpoint :=
  nodes.eraseP (·.isAt endpoint)

theorem onNet_server {α : Type} (s : System ν) (x : Net ν α) (f : α → ResponseEnvelope) :
    (s.onNet x f).1.server = s.server := by
  unfold System.onNet
  split
  · rfl
  · rfl

/-- ADD_NODE does so. -/
theorem addNode_storageNodes (s : System ν) (endpoint : Endpoint) (managed : Bool) :
    (addNode w s endpoint managed).1.server.storageNodes
      = withNode s.server.storageNodes endpoint managed := by
  unfold addNode withNode
  dsimp only
  by_cases hexists : s.server.storageNodes.any (·.isAt endpoint) = true
  · rw [if_pos hexists, if_pos hexists]
  · rw [if_neg hexists, if_neg hexists]
    by_cases hempty : s.server.storageNodes = []
    · rw [if_pos hempty]
    · rw [if_neg hempty, onNet_server]

/-- REMOVE_NODE does so. -/
theorem removeNode_storageNodes (s : System ν) (endpoint : Endpoint) :
    (removeNode w s endpoint).1.server.storageNodes
      = withoutNode s.server.storageNodes endpoint := by
  unfold removeNode withoutNode
  dsimp only
  by_cases hexists : s.server.storageNodes.any (·.isAt endpoint) = true
  · rw [if_neg (by simp [hexists])]
    by_cases hempty : s.server.storageNodes.eraseP (·.isAt endpoint) = []
    · rw [if_pos hempty]
    · rw [if_neg hempty, onNet_server]
  · rw [if_pos (by simpa using hexists)]
    refine (List.eraseP_of_forall_not fun node hnode hat => hexists ?_).symm
    exact List.any_eq_true.mpr ⟨node, hnode, hat⟩

/-! ## §2. Steps. -/

/-- A cycle between its two locks: the copy, the next position and
`dead_indices`. -/
structure Cycle where
  nodesSnapshot : List StorageNodeEndpoint
  index : Nat
  deadIndices : List Nat

/-- `storage_nodes_` and the cycle under way. -/
structure Heartbeat where
  storageNodes : List StorageNodeEndpoint
  cycle : Option Cycle

/-- The steps of the heartbeat and of membership requests. -/
inductive Beat where
  | snapshot
  | ping (response : Option ResponseEnvelope)
  | apply (forks : Nat → Bool)
  | addNode (endpoint : Endpoint) (managed : Bool)
  | removeNode (endpoint : Endpoint)

/-- The calls of `RestartManagedNode` in a step: the nodes looked at, each with
the answer where there was a call. -/
abbrev Judged := List (StorageNodeEndpoint × Option Bool)

/-- **A step.**  A step of a cycle that is not its turn does nothing. -/
def heartbeat : Machine Heartbeat Beat Judged
  | s, .snapshot =>
      if s.cycle.isSome then (s, []) else ({ s with cycle := some ⟨s.storageNodes, 0, []⟩ }, [])
  | s, .ping response =>
      match s.cycle with
      | none => (s, [])
      | some c =>
          if c.index < c.nodesSnapshot.length then
            ({ s with cycle := some { c with
                index := c.index + 1
                deadIndices := if healthy response then c.deadIndices
                  else c.deadIndices ++ [c.index] } }, [])
          else (s, [])
  | s, .apply forks =>
      match s.cycle with
      | none => (s, [])
      | some c =>
          if c.index < c.nodesSnapshot.length then (s, [])
          else
            let judged := judgeAll forks c.deadIndices s.storageNodes
            (⟨judged.map (·.1), none⟩, judged)
  | s, .addNode endpoint managed =>
      ({ s with storageNodes := withNode s.storageNodes endpoint managed }, [])
  | s, .removeNode endpoint =>
      ({ s with storageNodes := withoutNode s.storageNodes endpoint }, [])

/-- The answers of the nodes to one round of pings. -/
def pingAnswers : List StorageNodeEndpoint → ν → List Beat
  | [], _ => []
  | node :: rest, net =>
      let r := w.forward net node pingRequest
      .ping r.2 :: pingAnswers rest r.1

theorem run_pingAnswers (nodes storageNodes : List StorageNodeEndpoint) :
    ∀ (rest front : List StorageNodeEndpoint) (dead : List Nat) (net : ν),
      nodes = front ++ rest →
      heartbeat.run ⟨storageNodes, some ⟨nodes, front.length, dead⟩⟩ (pingAnswers w rest net)
        = ⟨storageNodes, some ⟨nodes, nodes.length, (pingLoop w front.length rest dead net).2⟩⟩ := by
  intro rest
  induction rest with
  | nil =>
      intro front dead net hsplit
      rw [hsplit, List.append_nil]
      rfl
  | cons node rest ih =>
      intro front dead net hsplit
      have hlt : front.length < nodes.length := by
        rw [hsplit, List.length_append, List.length_cons]
        omega
      have hnext := ih (front ++ [node])
        (if healthy (w.forward net node pingRequest).2 then dead else dead ++ [front.length])
        (w.forward net node pingRequest).1 (by rw [hsplit, List.append_assoc]; rfl)
      rw [List.length_append, List.length_singleton] at hnext
      rw [pingAnswers, pingLoop, Machine.run, ← hnext]
      dsimp only [heartbeat]
      rw [if_pos hlt]

/-- **A cycle by itself is `RunHeartbeatCycle`.** -/
theorem run_cycle (forks : Nat → Bool) (s : System ν) :
    heartbeat.run ⟨s.server.storageNodes, none⟩
        (.snapshot :: pingAnswers w s.server.storageNodes s.net ++ [.apply forks])
      = ⟨(runHeartbeatCycle w forks s).1.server.storageNodes, none⟩ := by
  have hsnapshot : heartbeat.run ⟨s.server.storageNodes, none⟩
      (.snapshot :: pingAnswers w s.server.storageNodes s.net)
      = heartbeat.run ⟨s.server.storageNodes, some ⟨s.server.storageNodes, 0, []⟩⟩
        (pingAnswers w s.server.storageNodes s.net) := rfl
  have hpings := run_pingAnswers w s.server.storageNodes s.server.storageNodes
    s.server.storageNodes [] [] s.net rfl
  rw [List.length_nil] at hpings
  rw [Machine.run_append, hsnapshot, hpings, Machine.run, Machine.run]
  dsimp only [heartbeat]
  rw [if_neg (Nat.lt_irrefl _)]
  rfl

/-! ## §3. What the nodes themselves did. -/

/-- A node as its own pings show it: whether it failed the ping of the cycle
under way, and which of the cycles since it was added or last restarted it
failed, the last one first. -/
structure Record where
  failing : Bool
  outcomes : List Bool

/-- The number of most recent failures in a row. -/
def streak (outcomes : List Bool) : Nat := (outcomes.takeWhile id).length

/-- `RestartManagedNode` was called for the node and succeeded. -/
def Restarted (judged : Judged) (endpoint : Endpoint) : Prop :=
  ∃ p ∈ judged, p.1.endpoint = endpoint ∧ p.2 = some true

instance (judged : Judged) (endpoint : Endpoint) : Decidable (Restarted judged endpoint) :=
  inferInstanceAs (Decidable (∃ p ∈ judged, _))

/-- The records after a step. -/
def observe (records : Endpoint → Record) (s : Heartbeat) : Beat → Endpoint → Record
  | .snapshot, endpoint =>
      if s.cycle.isSome then records endpoint
      else { records endpoint with failing := false }
  | .ping response, endpoint =>
      match s.cycle with
      | none => records endpoint
      | some c =>
          if (c.nodesSnapshot[c.index]?).any (·.endpoint = endpoint) then
            { records endpoint with failing := !healthy response }
          else records endpoint
  | .apply forks, endpoint =>
      match s.cycle with
      | none => records endpoint
      | some c =>
          if c.index < c.nodesSnapshot.length then records endpoint
          else if Restarted (judgeAll forks c.deadIndices s.storageNodes) endpoint then ⟨false, []⟩
          else ⟨false, (records endpoint).failing :: (records endpoint).outcomes⟩
  | .addNode added _, endpoint =>
      if added = endpoint ∧ ¬ s.storageNodes.any (·.isAt added) = true then ⟨false, []⟩
      else records endpoint
  | .removeNode _, endpoint => records endpoint

/-- The heartbeat and the records of all nodes. -/
structure Watched where
  beat : Heartbeat
  records : Endpoint → Record

def watched : Machine Watched Beat Judged := fun s event =>
  let r := heartbeat s.beat event
  (⟨r.1, observe s.records s.beat event⟩, r.2)

/-- A server without nodes. -/
def Watched.fresh : Watched := ⟨⟨[], none⟩, fun _ => ⟨false, []⟩⟩

/-- Every count is that of the node itself. -/
def CountsRight (s : Watched) : Prop :=
  ∀ node ∈ s.beat.storageNodes, node.failCount = streak (s.records node.endpoint).outcomes

/-- **A step blames the right nodes**: the counts after it are those of the
nodes, and it calls `RestartManagedNode` only for managed nodes that failed
three pings in a row, this cycle's among them. -/
def BlamesRight (s : Watched) (event : Beat) : Prop :=
  CountsRight (watched s event).1 ∧
    ∀ p ∈ (watched s event).2, p.2 ≠ none → p.1.managed = true ∧
      3 ≤ streak ((s.records p.1.endpoint).failing :: (s.records p.1.endpoint).outcomes)

/-- **Positions agree with nodes**: where results are applied, a position of
the list failed in the copy exactly if the node that is there now has failed
its ping of this cycle. -/
def Attributed (s : Watched) : Beat → Prop
  | .apply _ =>
      ∀ c, s.beat.cycle = some c → ¬ c.index < c.nodesSnapshot.length →
        ∀ i node, s.beat.storageNodes[i]? = some node →
          (i ∈ c.deadIndices ↔ (s.records node.endpoint).failing = true)
  | _ => True

/-! ## §4. Counts. -/

@[simp] theorem streak_true (outcomes : List Bool) :
    streak (true :: outcomes) = streak outcomes + 1 := rfl

@[simp] theorem streak_false (outcomes : List Bool) : streak (false :: outcomes) = 0 := rfl

@[simp] theorem streak_nil : streak [] = 0 := rfl

theorem judge_endpoint (forked isDead : Bool) (node : StorageNodeEndpoint) :
    (judge forked isDead node).1.endpoint = node.endpoint := by
  unfold judge
  dsimp only
  split
  · rfl
  · split
    · split
      · rfl
      · rfl
    · rfl

theorem judge_managed (forked isDead : Bool) (node : StorageNodeEndpoint) :
    (judge forked isDead node).1.managed = node.managed := by
  unfold judge
  dsimp only
  split
  · rfl
  · split
    · split
      · rfl
      · rfl
    · rfl

/-- **One node of the second loop.**  Its count and the call made for it are
right exactly if it is taken for dead where it failed. -/
theorem judge_right_iff {node : StorageNodeEndpoint} {outcomes : List Bool}
    (hcount : node.failCount = streak outcomes) (forked isDead failing : Bool) :
    ((judge forked isDead node).1.failCount
        = streak (if (judge forked isDead node).2 = some true then [] else failing :: outcomes) ∧
      ((judge forked isDead node).2 ≠ none →
        node.managed = true ∧ 3 ≤ streak (failing :: outcomes))) ↔
      isDead = failing := by
  cases isDead with
  | false =>
      rw [show judge forked false node = ({ node with failCount := 0 }, none) from rfl]
      cases failing with
      | false => simp
      | true => simp
  | true =>
      unfold judge
      rw [if_neg (show ¬ (!true) = true by decide)]
      dsimp only
      by_cases hcall : node.managed = true ∧ 3 ≤ node.failCount + 1
      · rw [if_pos hcall]
        by_cases hrestart : restartManagedNode forked
            { node with failCount := node.failCount + 1 } = true
        · rw [if_pos hrestart]
          cases failing with
          | false => simp
          | true => simpa [← hcount] using hcall
        · rw [if_neg hrestart]
          cases failing with
          | false => simp
          | true => simpa [← hcount] using hcall
      · rw [if_neg hcall]
        cases failing with
        | false => simp
        | true => simp [hcount]

theorem isAt_iff {node : StorageNodeEndpoint} {endpoint : Endpoint} :
    node.isAt endpoint = true ↔ node.endpoint = endpoint := by
  unfold StorageNodeEndpoint.isAt StorageNodeEndpoint.endpoint
  rw [decide_eq_true_iff, Prod.ext_iff]

/-- No two nodes have one endpoint. -/
def DistinctNodes (nodes : List StorageNodeEndpoint) : Prop := (nodes.map (·.endpoint)).Nodup

theorem DistinctNodes.index_eq {nodes : List StorageNodeEndpoint} (h : DistinctNodes nodes)
    {i j : Nat} {a b : StorageNodeEndpoint} (ha : nodes[i]? = some a) (hb : nodes[j]? = some b)
    (hsame : a.endpoint = b.endpoint) : i = j := by
  have hlt : i < (nodes.map (·.endpoint)).length := by
    rw [List.length_map]
    exact (List.getElem?_eq_some_iff.mp ha).1
  apply (List.getElem?_inj hlt h).mp
  rw [List.getElem?_map, List.getElem?_map, ha, hb, Option.map_some, Option.map_some, hsame]

theorem getElem?_judgeAll (forks : Nat → Bool) (dead : List Nat)
    (nodes : List StorageNodeEndpoint) (i : Nat) :
    (judgeAll forks dead nodes)[i]?
      = nodes[i]?.map (judge (forks i) (dead.contains i)) :=
  List.getElem?_mapIdx

theorem map_endpoint_judgeAll (forks : Nat → Bool) (dead : List Nat)
    (nodes : List StorageNodeEndpoint) :
    ((judgeAll forks dead nodes).map (·.1)).map (·.endpoint) = nodes.map (·.endpoint) := by
  apply List.ext_getElem?
  intro i
  simp only [List.getElem?_map, getElem?_judgeAll, Option.map_map]
  cases nodes[i]? with
  | none => rfl
  | some node => exact congrArg some (judge_endpoint (forks i) (dead.contains i) node)

/-- Among distinct nodes, the node at a position is restarted by the call made
for this position. -/
theorem restarted_iff {nodes : List StorageNodeEndpoint} (h : DistinctNodes nodes)
    {forks : Nat → Bool} {dead : List Nat} {i : Nat} {node : StorageNodeEndpoint}
    (hnode : nodes[i]? = some node) :
    Restarted (judgeAll forks dead nodes) node.endpoint ↔
      (judge (forks i) (dead.contains i) node).2 = some true := by
  constructor
  · rintro ⟨p, hp, hend, hcall⟩
    obtain ⟨j, hj⟩ := List.mem_iff_getElem?.mp hp
    rw [getElem?_judgeAll] at hj
    obtain ⟨other, hother, rfl⟩ := Option.map_eq_some_iff.mp hj
    rw [judge_endpoint] at hend
    obtain rfl := h.index_eq hother hnode hend
    obtain rfl := Option.some.inj (hother.symm.trans hnode)
    exact hcall
  · intro hcall
    refine ⟨_, List.mem_iff_getElem?.mpr ⟨i, ?_⟩, judge_endpoint _ _ node, hcall⟩
    rw [getElem?_judgeAll, hnode, Option.map_some]

/-! ## §5. One step, and every run. -/

/-- What every run keeps: distinct nodes, each with its own count. -/
structure Sound (s : Watched) : Prop where
  distinct : DistinctNodes s.beat.storageNodes
  counts : CountsRight s

section Steps

variable {s : Watched}

/-- The second loop of a cycle. -/
theorem apply_blames_iff (hs : Sound s) {c : Cycle} (hcycle : s.beat.cycle = some c)
    (hdone : ¬ c.index < c.nodesSnapshot.length) (forks : Nat → Bool) :
    BlamesRight s (.apply forks) ↔ Attributed s (.apply forks) := by
  have hstep : watched s (.apply forks)
      = (⟨⟨(judgeAll forks c.deadIndices s.beat.storageNodes).map (·.1), none⟩,
          observe s.records s.beat (.apply forks)⟩,
        judgeAll forks c.deadIndices s.beat.storageNodes) := by
    simp only [watched, heartbeat, hcycle, if_neg hdone]
  have hpoint : ∀ i node, s.beat.storageNodes[i]? = some node →
      (((judge (forks i) (c.deadIndices.contains i) node).1.failCount
          = streak (observe s.records s.beat (.apply forks) node.endpoint).outcomes ∧
        ((judge (forks i) (c.deadIndices.contains i) node).2 ≠ none → node.managed = true ∧
          3 ≤ streak ((s.records node.endpoint).failing :: (s.records node.endpoint).outcomes)))
        ↔ (i ∈ c.deadIndices ↔ (s.records node.endpoint).failing = true)) := by
    intro i node hnode
    have hrecord : (observe s.records s.beat (.apply forks) node.endpoint).outcomes
        = if (judge (forks i) (c.deadIndices.contains i) node).2 = some true then []
          else (s.records node.endpoint).failing :: (s.records node.endpoint).outcomes := by
      simp only [observe, hcycle, if_neg hdone, restarted_iff hs.distinct hnode]
      split
      · rfl
      · rfl
    rw [hrecord, judge_right_iff (hs.counts node (List.mem_of_getElem? hnode)),
      Bool.eq_iff_iff, List.contains_iff_mem]
  unfold BlamesRight CountsRight Attributed
  rw [hstep]
  constructor
  · rintro ⟨hcounts, hcalls⟩ c' hc' - i node hnode
    obtain rfl := Option.some.inj (hcycle.symm.trans hc')
    have hat : (judgeAll forks c.deadIndices s.beat.storageNodes)[i]?
        = some (judge (forks i) (c.deadIndices.contains i) node) := by
      rw [getElem?_judgeAll, hnode, Option.map_some]
    have hmem := List.mem_of_getElem? hat
    apply (hpoint i node hnode).mp
    have hcount := hcounts _ (List.mem_map_of_mem hmem)
    have hcall := hcalls _ hmem
    rw [judge_endpoint] at hcount hcall
    rw [judge_managed] at hcall
    exact ⟨hcount, hcall⟩
  · intro h
    have hall : ∀ p ∈ judgeAll forks c.deadIndices s.beat.storageNodes,
        p.1.failCount
          = streak (observe s.records s.beat (.apply forks) p.1.endpoint).outcomes ∧
        (p.2 ≠ none → p.1.managed = true ∧
          3 ≤ streak ((s.records p.1.endpoint).failing ::
            (s.records p.1.endpoint).outcomes)) := by
      intro p hp
      obtain ⟨i, hi⟩ := List.mem_iff_getElem?.mp hp
      rw [getElem?_judgeAll] at hi
      obtain ⟨node, hnode, rfl⟩ := Option.map_eq_some_iff.mp hi
      rw [judge_endpoint, judge_managed]
      exact (hpoint i node hnode).mpr (h c hcycle hdone i node hnode)
    refine ⟨fun node hnode => ?_, fun p hp => (hall p hp).2⟩
    obtain ⟨p, hp, rfl⟩ := List.mem_map.mp hnode
    exact (hall p hp).1

/-- A step that judges nobody, and keeps the list and the outcomes. -/
theorem blames_of_kept (hs : Sound s) {event : Beat}
    (hnodes : (watched s event).1.beat.storageNodes = s.beat.storageNodes)
    (hrecords : ∀ endpoint,
      ((watched s event).1.records endpoint).outcomes = (s.records endpoint).outcomes)
    (hcalls : (watched s event).2 = []) : BlamesRight s event := by
  unfold BlamesRight CountsRight
  rw [hnodes, hcalls]
  refine ⟨fun node hnode => ?_, fun p hp => absurd hp List.not_mem_nil⟩
  rw [hrecords]
  exact hs.counts node hnode

theorem snapshot_blames (hs : Sound s) : BlamesRight s .snapshot := by
  apply blames_of_kept hs
  · simp only [watched, heartbeat]
    split
    · rfl
    · rfl
  · intro endpoint
    simp only [watched, observe]
    split
    · rfl
    · rfl
  · simp only [watched, heartbeat]
    split
    · rfl
    · rfl

theorem ping_blames (hs : Sound s) (response : Option ResponseEnvelope) :
    BlamesRight s (.ping response) := by
  cases hcycle : s.beat.cycle with
  | none =>
      apply blames_of_kept hs
      · simp only [watched, heartbeat, hcycle]
      · intro endpoint
        simp only [watched, observe, hcycle]
      · simp only [watched, heartbeat, hcycle]
  | some c =>
      apply blames_of_kept hs
      · simp only [watched, heartbeat, hcycle]
        split
        · rfl
        · rfl
      · intro endpoint
        simp only [watched, observe, hcycle]
        split
        · rfl
        · rfl
      · simp only [watched, heartbeat, hcycle]
        split
        · rfl
        · rfl

theorem mem_withNode {nodes : List StorageNodeEndpoint} {endpoint : Endpoint} {managed : Bool}
    {node : StorageNodeEndpoint} (h : node ∈ withNode nodes endpoint managed) :
    node ∈ nodes ∨
      (node = ⟨endpoint.1, endpoint.2, managed, 0⟩ ∧ ¬ nodes.any (·.isAt endpoint) = true) := by
  unfold withNode at h
  split at h
  · exact .inl h
  · rename_i hnew
    exact (List.mem_append.mp h).imp id fun hadded => ⟨List.mem_singleton.mp hadded, hnew⟩

theorem addNode_blames (hs : Sound s) (endpoint : Endpoint) (managed : Bool) :
    BlamesRight s (.addNode endpoint managed) := by
  refine ⟨fun node hnode => ?_, fun p hp => absurd hp List.not_mem_nil⟩
  show node.failCount = streak (observe s.records s.beat (.addNode endpoint managed)
    node.endpoint).outcomes
  unfold observe
  dsimp only
  rcases mem_withNode hnode with hold | ⟨rfl, hnew⟩
  · rw [if_neg]
    · exact hs.counts node hold
    · rintro ⟨heq, hnew⟩
      exact hnew (List.any_eq_true.mpr ⟨node, hold, isAt_iff.mpr heq.symm⟩)
  · rw [if_pos ⟨rfl, hnew⟩]
    rfl

theorem removeNode_blames (hs : Sound s) (endpoint : Endpoint) :
    BlamesRight s (.removeNode endpoint) := by
  refine ⟨fun node hnode => ?_, fun p hp => absurd hp List.not_mem_nil⟩
  exact hs.counts node (List.mem_of_mem_eraseP hnode)

/-- **One step** blames the right nodes exactly where positions agree. -/
theorem blames_iff (hs : Sound s) (event : Beat) : BlamesRight s event ↔ Attributed s event := by
  cases event with
  | snapshot => exact iff_of_true (snapshot_blames hs) trivial
  | ping response => exact iff_of_true (ping_blames hs response) trivial
  | addNode endpoint managed => exact iff_of_true (addNode_blames hs endpoint managed) trivial
  | removeNode endpoint => exact iff_of_true (removeNode_blames hs endpoint) trivial
  | apply forks =>
      cases hcycle : s.beat.cycle with
      | none =>
          refine iff_of_true (blames_of_kept hs ?_ ?_ ?_) ?_
          · simp only [watched, heartbeat, hcycle]
          · intro endpoint
            simp only [watched, observe, hcycle]
          · simp only [watched, heartbeat, hcycle]
          · intro c hc
            cases hcycle.symm.trans hc
      | some c =>
          by_cases hdone : c.index < c.nodesSnapshot.length
          · refine iff_of_true (blames_of_kept hs ?_ ?_ ?_) ?_
            · simp only [watched, heartbeat, hcycle, if_pos hdone]
            · intro endpoint
              simp only [watched, observe, hcycle, if_pos hdone]
            · simp only [watched, heartbeat, hcycle, if_pos hdone]
            · intro c' hc' hnot
              obtain rfl := Option.some.inj (hcycle.symm.trans hc')
              exact absurd hdone hnot
          · exact apply_blames_iff hs hcycle hdone forks

theorem withNode_distinct {nodes : List StorageNodeEndpoint} (h : DistinctNodes nodes)
    (endpoint : Endpoint) (managed : Bool) : DistinctNodes (withNode nodes endpoint managed) := by
  unfold withNode
  split
  · exact h
  · rename_i hnew
    unfold DistinctNodes
    rw [List.map_append]
    apply List.nodup_append.mpr ⟨h, List.nodup_singleton _, ?_⟩
    intro a ha b hb heq
    obtain ⟨node, hnode, rfl⟩ := List.mem_map.mp ha
    rw [List.mem_singleton.mp hb] at heq
    exact hnew (List.any_eq_true.mpr ⟨node, hnode, isAt_iff.mpr heq⟩)

/-- Nodes stay distinct. -/
theorem watched_distinct (hs : DistinctNodes s.beat.storageNodes) (event : Beat) :
    DistinctNodes (watched s event).1.beat.storageNodes := by
  cases event with
  | snapshot =>
      simp only [watched, heartbeat]
      split
      · exact hs
      · exact hs
  | ping response =>
      simp only [watched, heartbeat]
      split
      · exact hs
      · split
        · exact hs
        · exact hs
  | apply forks =>
      simp only [watched, heartbeat]
      split
      · exact hs
      · split
        · exact hs
        · unfold DistinctNodes
          rw [map_endpoint_judgeAll]
          exact hs
  | addNode endpoint managed => exact withNode_distinct hs endpoint managed
  | removeNode endpoint => exact hs.sublist (List.eraseP_sublist.map _)

/-- **The step lemma.** -/
theorem watched_sound (hs : Sound s) {event : Beat} (h : Attributed s event) :
    Sound (watched s event).1 :=
  ⟨watched_distinct hs.distinct event, ((blames_iff hs event).mpr h).1⟩

theorem sound_fresh : Sound Watched.fresh :=
  ⟨List.nodup_nil, fun _ hnode => absurd hnode List.not_mem_nil⟩

end Steps

/-- **The heartbeat blames the right nodes in every step of a run exactly if,
whenever results are applied, positions agree with nodes.** -/
theorem heartbeat_blames_iff (events : List Beat) :
    watched.Along BlamesRight Watched.fresh events ↔
      watched.Along Attributed Watched.fresh events := by
  constructor
  · intro h
    apply h.imp (I := Sound) ?_ ?_ sound_fresh
    · exact fun s event hs hblames => watched_sound hs ((blames_iff hs event).mp hblames)
    · exact fun s event hs hblames => (blames_iff hs event).mp hblames
  · intro h
    apply h.imp (I := Sound) ?_ ?_ sound_fresh
    · exact fun s event hs hattributed => watched_sound hs hattributed
    · exact fun s event hs hattributed => (blames_iff hs event).mpr hattributed

/-! ## §6. Cycles in which no node leaves. -/

/-- No node of the list is removed while a cycle is under way. -/
def Undisturbed (s : Watched) : Beat → Prop
  | .removeNode endpoint =>
      s.beat.cycle = none ∨ ∀ node ∈ s.beat.storageNodes, node.endpoint ≠ endpoint
  | _ => True

/-- A cycle whose positions still agree with nodes. -/
structure AlignedCycle (s : Watched) (c : Cycle) : Prop where
  grown : c.nodesSnapshot <+: s.beat.storageNodes
  pinged : ∀ i ∈ c.deadIndices, i < c.index
  agrees : ∀ i node, s.beat.storageNodes[i]? = some node →
    (i ∈ c.deadIndices ↔ (s.records node.endpoint).failing = true)

/-- Positions agree throughout. -/
structure Aligned (s : Watched) : Prop where
  distinct : DistinctNodes s.beat.storageNodes
  bounded : ∀ c, s.beat.cycle = some c → c.index ≤ c.nodesSnapshot.length
  cycle : ∀ c, s.beat.cycle = some c → AlignedCycle s c

theorem Aligned.attributed {s : Watched} (h : Aligned s) (event : Beat) : Attributed s event := by
  cases event with
  | apply forks => exact fun c hcycle _ => (h.cycle c hcycle).agrees
  | snapshot => trivial
  | ping response => trivial
  | addNode endpoint managed => trivial
  | removeNode endpoint => trivial

/-- A ping keeps the positions of failures and the records in step. -/
theorem AlignedCycle.ping {s : Watched} (hs : DistinctNodes s.beat.storageNodes) {c : Cycle}
    (hcycle : s.beat.cycle = some c) (h : AlignedCycle s c)
    (hlt : c.index < c.nodesSnapshot.length) (response : Option ResponseEnvelope) :
    AlignedCycle (watched s (.ping response)).1 { c with
      index := c.index + 1
      deadIndices := if healthy response then c.deadIndices
        else c.deadIndices ++ [c.index] } := by
  have hnodes : (watched s (.ping response)).1.beat.storageNodes = s.beat.storageNodes := by
    simp only [watched, heartbeat, hcycle, if_pos hlt]
  have hpinged : c.nodesSnapshot[c.index]? = some c.nodesSnapshot[c.index] :=
    List.getElem?_eq_getElem hlt
  have hat : s.beat.storageNodes[c.index]? = some c.nodesSnapshot[c.index] := by
    obtain ⟨added, hgrown⟩ := h.grown
    rw [← hgrown, List.getElem?_append_left hlt, hpinged]
  have hrecord : ∀ endpoint, ((watched s (.ping response)).1.records endpoint).failing
      = if c.nodesSnapshot[c.index].endpoint = endpoint then !healthy response
        else (s.records endpoint).failing := by
    intro endpoint
    simp only [watched, observe, hcycle, hpinged, Option.any_some, decide_eq_true_iff]
    split
    · rfl
    · rfl
  constructor
  · rw [hnodes]
    exact h.grown
  · intro i hi
    dsimp only at hi ⊢
    split at hi
    · exact Nat.lt_succ_of_lt (h.pinged i hi)
    · rcases List.mem_append.mp hi with hold | hnew
      · exact Nat.lt_succ_of_lt (h.pinged i hold)
      · rw [List.mem_singleton.mp hnew]
        exact Nat.lt_succ_self _
  · rw [hnodes]
    intro i node hnode
    rw [hrecord]
    by_cases hsame : c.nodesSnapshot[c.index].endpoint = node.endpoint
    · -- the node of this ping, at the position of this ping
      obtain rfl := hs.index_eq hat hnode hsame
      rw [if_pos hsame]
      have hfresh : c.index ∉ c.deadIndices := fun hmem => Nat.lt_irrefl _ (h.pinged _ hmem)
      cases healthy response with
      | true => simpa using hfresh
      | false => simp
    · rw [if_neg hsame, ← h.agrees i node hnode]
      have hne : i ≠ c.index := by
        intro heq
        subst heq
        exact hsame (congrArg _ (Option.some.inj (hat.symm.trans hnode)))
      cases healthy response with
      | true => simp
      | false => simp [hne]

/-- A node that comes in is at the end, where nothing was pinged. -/
theorem AlignedCycle.addNode {s : Watched} {c : Cycle} (h : AlignedCycle s c)
    (hbounded : c.index ≤ c.nodesSnapshot.length) (endpoint : Endpoint) (managed : Bool) :
    AlignedCycle (watched s (.addNode endpoint managed)).1 c := by
  have hnodes : (watched s (.addNode endpoint managed)).1.beat.storageNodes
      = withNode s.beat.storageNodes endpoint managed := rfl
  have hrecord : ∀ e, (watched s (.addNode endpoint managed)).1.records e
      = if endpoint = e ∧ ¬ s.beat.storageNodes.any (·.isAt endpoint) = true then ⟨false, []⟩
        else s.records e := fun _ => rfl
  by_cases hexists : s.beat.storageNodes.any (·.isAt endpoint) = true
  · have hsame : (watched s (.addNode endpoint managed)).1.beat.storageNodes
        = s.beat.storageNodes := by
      rw [hnodes, withNode, if_pos hexists]
    refine ⟨hsame ▸ h.grown, h.pinged, ?_⟩
    rw [hsame]
    intro i node hnode
    rw [hrecord, if_neg fun hnot => hnot.2 hexists]
    exact h.agrees i node hnode
  · have hgrows : (watched s (.addNode endpoint managed)).1.beat.storageNodes
        = s.beat.storageNodes ++ [⟨endpoint.1, endpoint.2, managed, 0⟩] := by
      rw [hnodes, withNode, if_neg hexists]
    refine ⟨?_, h.pinged, ?_⟩
    · rw [hgrows]
      exact h.grown.trans (List.prefix_append _ _)
    · rw [hgrows]
      intro i node hnode
      rw [hrecord]
      by_cases hi : i < s.beat.storageNodes.length
      · rw [List.getElem?_append_left hi] at hnode
        rw [if_neg]
        · exact h.agrees i node hnode
        · rintro ⟨heq, -⟩
          exact hexists (List.any_eq_true.mpr
            ⟨node, List.mem_of_getElem? hnode, isAt_iff.mpr heq.symm⟩)
      · rw [List.getElem?_append_right (Nat.le_of_not_lt hi)] at hnode
        have hnew := List.mem_singleton.mp (List.mem_of_getElem? hnode)
        rw [if_pos ⟨by rw [hnew]; rfl, hexists⟩]
        refine iff_of_false (fun hmem => ?_) (by decide)
        have hdead := h.pinged i hmem
        have hlen := h.grown.length_le
        omega

/-- A step out of its turn. -/
theorem watched_of_idle {s : Watched} {event : Beat} (hbeat : (heartbeat s.beat event).1 = s.beat)
    (hrecords : ∀ endpoint, observe s.records s.beat event endpoint = s.records endpoint) :
    (watched s event).1 = s := by
  show (⟨(heartbeat s.beat event).1, observe s.records s.beat event⟩ : Watched) = s
  rw [hbeat, funext hrecords]

theorem snapshot_aligned {s : Watched} (hs : Aligned s) : Aligned (watched s .snapshot).1 := by
  cases hcycle : s.beat.cycle with
  | some c =>
      rw [watched_of_idle (by simp [heartbeat, hcycle]) (by simp [observe, hcycle])]
      exact hs
  | none =>
      have hstep : (watched s .snapshot).1.beat
          = ⟨s.beat.storageNodes, some ⟨s.beat.storageNodes, 0, []⟩⟩ := by
        simp [watched, heartbeat, hcycle]
      refine ⟨watched_distinct hs.distinct .snapshot, ?_, ?_⟩
      · rw [hstep]
        intro c hc
        cases hc
        exact Nat.zero_le _
      · rw [hstep]
        intro c hc
        cases hc
        refine ⟨?_, fun i hi => absurd hi List.not_mem_nil, fun i node _ => ?_⟩
        · rewrite [hstep]
          exact List.prefix_refl _
        · simp [watched, observe, hcycle]

theorem ping_aligned {s : Watched} (hs : Aligned s) (response : Option ResponseEnvelope) :
    Aligned (watched s (.ping response)).1 := by
  cases hcycle : s.beat.cycle with
  | none =>
      rw [watched_of_idle (by simp [heartbeat, hcycle]) (by simp [observe, hcycle])]
      exact hs
  | some c =>
      by_cases hlt : c.index < c.nodesSnapshot.length
      · refine ⟨watched_distinct hs.distinct _, ?_, ?_⟩
        · intro c' hc'
          simp only [watched, heartbeat, hcycle, if_pos hlt] at hc'
          cases hc'
          exact hlt
        · intro c' hc'
          have hnext := (hs.cycle c hcycle).ping hs.distinct hcycle hlt response
          simp only [watched, heartbeat, hcycle, if_pos hlt] at hc'
          cases hc'
          exact hnext
      · have hnone : c.nodesSnapshot[c.index]? = none :=
          List.getElem?_eq_none (Nat.le_of_not_lt hlt)
        rw [watched_of_idle (by simp [heartbeat, hcycle, hlt]) (by simp [observe, hcycle, hnone])]
        exact hs

theorem apply_aligned {s : Watched} (hs : Aligned s) (forks : Nat → Bool) :
    Aligned (watched s (.apply forks)).1 := by
  cases hcycle : s.beat.cycle with
  | none =>
      rw [watched_of_idle (by simp [heartbeat, hcycle]) (by simp [observe, hcycle])]
      exact hs
  | some c =>
      by_cases hlt : c.index < c.nodesSnapshot.length
      · rw [watched_of_idle (by simp [heartbeat, hcycle, hlt]) (by simp [observe, hcycle, hlt])]
        exact hs
      · have hover : (watched s (.apply forks)).1.beat.cycle = none := by
          simp only [watched, heartbeat, hcycle, if_neg hlt]
        refine ⟨watched_distinct hs.distinct _, ?_, ?_⟩
        · intro c' hc'
          cases hover.symm.trans hc'
        · intro c' hc'
          cases hover.symm.trans hc'

/-- **The step lemma** of undisturbed cycles. -/
theorem watched_aligned {s : Watched} (hs : Aligned s) {event : Beat} (h : Undisturbed s event) :
    Aligned (watched s event).1 := by
  cases event with
  | snapshot => exact snapshot_aligned hs
  | ping response => exact ping_aligned hs response
  | apply forks => exact apply_aligned hs forks
  | addNode endpoint managed =>
      exact ⟨watched_distinct hs.distinct _, hs.bounded, fun c hc =>
        (hs.cycle c hc).addNode (hs.bounded c hc) endpoint managed⟩
  | removeNode endpoint =>
      rcases h with hidle | habsent
      · refine ⟨watched_distinct hs.distinct _, ?_, ?_⟩
        · intro c hc
          cases hidle.symm.trans hc
        · intro c hc
          cases hidle.symm.trans hc
      · have hnodes : (watched s (.removeNode endpoint)).1.beat = s.beat := by
          show (⟨withoutNode s.beat.storageNodes endpoint, s.beat.cycle⟩ : Heartbeat) = s.beat
          rw [withoutNode, List.eraseP_of_forall_not fun node hnode hat =>
            habsent node hnode (isAt_iff.mp hat)]
        have hsame : (watched s (.removeNode endpoint)).1 = s :=
          watched_of_idle hnodes fun _ => rfl
        rw [hsame]
        exact hs

/-- **Where no node leaves during a cycle, the heartbeat blames the right
nodes**: ADD_NODE does no harm. -/
theorem attributed_of_undisturbed {events : List Beat}
    (h : watched.Along Undisturbed Watched.fresh events) :
    watched.Along Attributed Watched.fresh events := by
  apply h.imp (I := Aligned) ?_ ?_ ?_
  · exact fun s event hs hundisturbed => watched_aligned hs hundisturbed
  · exact fun s event hs _ => hs.attributed event
  · exact ⟨List.nodup_nil, (fun c hc => by cases hc), (fun c hc => by cases hc)⟩

/-! ## §7. A healthy node restarted. -/

/-- The address of a node of this host. -/
def localAt (port : Int32) : Endpoint := (str "127.0.0.1", port)

/-- A cycle in which all nodes fail but the last, and the first one leaves. -/
def unluckyCycle (failures : Nat) (leaves : Int32) : List Beat :=
  .snapshot :: List.replicate failures (.ping none) ++
    [.ping (some ⟨200, str "pong"⟩), .removeNode (localAt leaves), .apply fun _ => true]

/-- Three nodes that do not answer, and a managed one that always does. -/
def unluckyRun : List Beat :=
  [.addNode (localAt 1) false, .addNode (localAt 2) false, .addNode (localAt 3) false,
    .addNode (localAt 4) true] ++ unluckyCycle 3 1 ++ unluckyCycle 2 2 ++ unluckyCycle 1 3

/-- **A healthy node is restarted.**  It answered every ping; each time the
node before it left, its position was that of a failed one. -/
theorem healthy_node_restarted :
    (watched (watched.run Watched.fresh unluckyRun.dropLast) (.apply fun _ => true)).2
        = [(⟨str "127.0.0.1", 4, true, 0⟩, some true)] ∧
      ((watched.run Watched.fresh unluckyRun.dropLast).records (localAt 4)).failing = false ∧
      ((watched.run Watched.fresh unluckyRun.dropLast).records (localAt 4)).outcomes
        = [false, false] ∧
      ¬ watched.Along BlamesRight Watched.fresh unluckyRun := by
  have hcalls : (watched (watched.run Watched.fresh unluckyRun.dropLast)
      (.apply fun _ => true)).2 = [(⟨str "127.0.0.1", 4, true, 0⟩, some true)] := by
    decide
  have hfailing : ((watched.run Watched.fresh unluckyRun.dropLast).records
      (localAt 4)).failing = false := by
    decide
  refine ⟨hcalls, hfailing, by decide, fun h => ?_⟩
  have hlast : watched.Along BlamesRight Watched.fresh
      (unluckyRun.dropLast ++ [.apply fun _ => true]) := h
  have hblames := (Machine.along_append.mp hlast).2.1.2
  rw [hcalls] at hblames
  have hthree := (hblames _ List.mem_cons_self (Option.some_ne_none _)).2
  rw [show StorageNodeEndpoint.endpoint ⟨str "127.0.0.1", 4, true, 0⟩ = localAt 4 from rfl,
    hfailing] at hthree
  exact absurd hthree (by decide)

end CustomDbms.Server
