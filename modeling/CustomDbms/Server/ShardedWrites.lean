/-
  CustomDbms.Server.ShardedWrites
  ───────────────────────────────
  **WRITES ON A CLUSTER AND ON A SINGLE ENGINE.**

  An UPDATE or a DELETE without a WHERE clause goes to all nodes, one whose
  clause gives a value of the shard key to the node of that value; both make of
  the shards what a single engine makes of their union.  All others are
  refused: there is no fan-out of writes.
-/
import CustomDbms.Server.ShardedStore

namespace CustomDbms.Server

open CustomDbms.Common CustomDbms.Lib CustomDbms.Parser CustomDbms.Catalog CustomDbms.Network
open CustomDbms.Execution CustomDbms.Core CustomDbms.Runtime

/-! ## §1. Stores. -/

section Stores

variable {re : RegexMatch} {statement : Statement} {d t : Str} {schema : TableSchema}

end Stores

/-! ## §2. Nodes. -/

section Nodes

variable {c : Conditions} {re : RegexMatch} {s : System Nodes} {clientId sql : Str}
  {single : Store} {statement : Statement} {name : QualifiedName} {d : Str} {schema : TableSchema}

end Nodes

/-! ## §3. The coordinator. -/

section Coordinator

variable {ν : Type} (w : World ν) (s : System ν) (request : RequestEnvelope)
  {statement : Statement} {name : QualifiedName} {whereClause : Option Expression}

end Coordinator

/-! ## §4. Refinement. -/

section Refinement

variable {c : Conditions} {re : RegexMatch} {s : System Nodes} {request : RequestEnvelope}
  {single single' : Store} {statement : Statement} {name : QualifiedName} {d : Str}
  {schema : TableSchema}

end Refinement

/-! ## §5. A write without the shard key. -/

/-- A request of the client `c`. -/
def requestOf (payload : String) : RequestEnvelope := ⟨str "c", [], str payload⟩

end CustomDbms.Server
