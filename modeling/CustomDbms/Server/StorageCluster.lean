/-
  CustomDbms.Server.StorageCluster
  ────────────────────────────────
  **A CLUSTER OF STORAGE NODES** (`ForwardToStorageNode` with the servers
  behind it, `src/common/uuid.cpp`).

  A storage node is a server of its own, without storage nodes.  A message to
  it may not arrive, or be handled without its answer coming back, and between
  two messages of the coordinator the nodes may handle requests of others.
  Every message and every execution of a prepared transaction is recorded.
-/
import CustomDbms.Server.Broadcast

namespace CustomDbms.Server

open CustomDbms.Common CustomDbms.Lib CustomDbms.Parser CustomDbms.Catalog CustomDbms.Network
open CustomDbms.Execution CustomDbms.Core CustomDbms.Runtime

/-! ## §1. Transaction ids. -/

/-- The sixteen bytes of a GUID, with version and variant set. -/
def guidByte (drawn : Fin 16 → Byte) (i : Fin 16) : Nat :=
  if i = 6 then (drawn i).val &&& 0x0F ||| 0x40
  else if i = 8 then (drawn i).val &&& 0x3F ||| 0x80
  else (drawn i).val

/-- `NewGuidV4`, from the bytes it draws. -/
def newGuidV4 (drawn : Fin 16 → Byte) : Str :=
  (List.finRange 16).flatMap fun i =>
    (if i = 4 ∨ i = 6 ∨ i = 8 ∨ i = 10 then str "-" else []) ++ hexPadded 2 (guidByte drawn i)

/-- The byte between the words of a command. -/
def blank : Byte := byte ' '

theorem blank_not_mem_newGuidV4 (drawn : Fin 16 → Byte) : blank ∉ newGuidV4 drawn := by
  intro hm
  obtain ⟨i, -, hi⟩ := List.mem_flatMap.mp hm
  rcases List.mem_append.mp hi with hi | hi
  · split at hi
    · revert hi
      decide
    · cases hi
  · exact not_mem_hexPadded (by decide) _ _ hi

theorem newGuidV4_ne_nil (drawn : Fin 16 → Byte) : newGuidV4 drawn ≠ [] := by
  intro hnil
  have hfirst := List.flatMap_eq_nil_iff.mp hnil 0 (List.mem_finRange 0)
  simp [hexPadded] at hfirst

/-! ## §2. Nodes and messages. -/

/-- What becomes of a message: the node is not reached, it handles the message
and the answer is lost, or it answers. -/
inductive Delivery where
  | lost | unanswered | answered
  deriving Repr, DecidableEq

/-- What a node takes from the moment in which it handles a request. -/
structure Moment where
  context : RequestContext
  drawn : Fin 16 → Byte

/-- A request some node gets from somebody else. -/
structure Foreign where
  endpoint : Endpoint
  moment : Moment
  request : RequestEnvelope

/-- One message of the coordinator: the requests of others the nodes handle
before it, and what becomes of it. -/
structure Tick where
  others : List Foreign
  delivery : Delivery
  moment : Moment

/-- What the cluster runs under: a tick for each message, the bytes of the
transaction ids, and the functions of the libraries. -/
structure Conditions where
  tick : Nat → Tick
  drawn : Nat → Fin 16 → Byte
  hashes : Hashes
  hmac : Hmac

/-- A prepared transaction that a node has executed. -/
structure Execution where
  endpoint : Endpoint
  txId : Str
  sql : Str
  succeeded : Bool
  deriving DecidableEq

/-- A message of the coordinator, with the answer it got. -/
structure Message where
  endpoint : Endpoint
  request : RequestEnvelope
  answer : Option ResponseEnvelope

/-- The nodes, and what has happened on them. -/
structure Nodes where
  servers : Endpoint → EntrypointServer
  clock : Nat
  guids : Nat
  sent : List Message
  executed : List Execution

/-- The world as a storage node sees it. -/
def nodeWorld (c : Conditions) (drawn : Fin 16 → Byte) : World Unit where
  forward := fun _ _ _ => ((), none)
  newGuid := fun _ => ((), newGuidV4 drawn)
  hashes := c.hashes
  hmac := c.hmac

/-- `HandleRequest` of a node. -/
def handleAt (c : Conditions) (moment : Moment) (server : EntrypointServer)
    (request : RequestEnvelope) : EntrypointServer × Option ResponseEnvelope :=
  let r := handleRequest (nodeWorld c moment.drawn) moment.context ⟨server, ()⟩ request
  (r.1.server, r.2)

/-- The prepared transaction a request makes a server execute. -/
def committedBy (server : EntrypointServer) (request : RequestEnvelope) :
    Option (Str × PendingClusterTransaction) :=
  match stripStart (str "CLUSTER COMMIT_TX ") request.payload with
  | some txId =>
      if txId = [] then none
      else (server.pendingClusterTransactions.find? txId).map fun pending => (txId, pending)
  | none => none

/-- A node handles a request. -/
def Nodes.handle (c : Conditions) (n : Nodes) (endpoint : Endpoint) (moment : Moment)
    (request : RequestEnvelope) : Nodes × Option ResponseEnvelope :=
  let r := handleAt c moment (n.servers endpoint) request
  ({ n with
      servers := Function.update n.servers endpoint r.1
      executed := n.executed ++ ((committedBy (n.servers endpoint) request).map fun p =>
        ⟨endpoint, p.1, p.2.sql, answered r.2⟩).toList }, r.2)

/-- The nodes handle requests of others. -/
def Nodes.handleAll (c : Conditions) : Nodes → List Foreign → Nodes
  | n, [] => n
  | n, f :: rest => Nodes.handleAll c (n.handle c f.endpoint f.moment f.request).1 rest

/-- A message to a node, once it has been decided what becomes of it. -/
def Nodes.deliver (c : Conditions) (n : Nodes) (tick : Tick) (endpoint : Endpoint)
    (request : RequestEnvelope) : Nodes × Option ResponseEnvelope :=
  match tick.delivery with
  | .lost => (n, none)
  | .unanswered => ((n.handle c endpoint tick.moment request).1, none)
  | .answered => n.handle c endpoint tick.moment request

/-- `ForwardToStorageNode`. -/
def Nodes.forward (c : Conditions) (n : Nodes) (node : StorageNodeEndpoint)
    (request : RequestEnvelope) : Nodes × Option ResponseEnvelope :=
  let tick := c.tick n.clock
  let before := Nodes.handleAll c { n with clock := n.clock + 1 } tick.others
  let r := before.deliver c tick node.endpoint request
  ({ r.1 with sent := r.1.sent ++ [⟨node.endpoint, request, r.2⟩] }, r.2)

/-- The world of a coordinator of storage nodes. -/
def clusterWorld (c : Conditions) : World Nodes where
  forward := Nodes.forward c
  newGuid := fun n => ({ n with guids := n.guids + 1 }, newGuidV4 (c.drawn n.guids))
  hashes := c.hashes
  hmac := c.hmac

end CustomDbms.Server
