/-
  CustomDbms.Server.ShardedReads
  ──────────────────────────────
  **READS ON A CLUSTER AND ON A SINGLE ENGINE.**

  A SELECT whose clause gives a value of the shard key is answered by the node
  of that value, every other one by all nodes: the texts of their answers are
  cut open and put together.  For a projection that is the union of the rows;
  an aggregate query gets one row from every node, and the rows are not
  combined.
-/
import CustomDbms.Execution.SelectedRows
import CustomDbms.Server.MergedAnswers
import CustomDbms.Server.ShardedWrites

namespace CustomDbms.Server

open CustomDbms.Common CustomDbms.Lib CustomDbms.Parser CustomDbms.Catalog CustomDbms.Network
open CustomDbms.Execution CustomDbms.Core CustomDbms.Runtime CustomDbms.Planner

/-! ## §1. What is read of a table. -/

section Reading

variable {schema : TableSchema} {items : List SelectItem}

end Reading

/-! ## §2. SELECT on a store. -/

section Stores

variable (env : Env) (session : SessionContext) (stmt : SelectStatement) {s : Store}

end Stores

/-! ## §3. Answers of the nodes. -/

section Answers

variable {c : Conditions} {re : RegexMatch} {s : System Nodes} {request : RequestEnvelope}
  {single : Store} {stmt : SelectStatement} {d : Str} {schema : TableSchema}

end Answers

/-! ## §4. The coordinator. -/

section Coordinator

variable {ν : Type} (w : World ν) (s : System ν) (request : RequestEnvelope)
  (stmt : SelectStatement)

end Coordinator

/-! ## §5. Rows in a text. -/

section Refinement

variable {c : Conditions} {re : RegexMatch} {s : System Nodes} {request : RequestEnvelope}
  {single : Store} {stmt : SelectStatement} {d : Str} {schema : TableSchema} {texts : List Str}

end Refinement

/-! ## §7. COUNT over two shards. -/

end CustomDbms.Server
