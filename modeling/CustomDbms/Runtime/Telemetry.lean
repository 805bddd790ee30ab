/-
  CustomDbms.Runtime.Telemetry
  ────────────────────────────
  **THE TELEMETRY OF ONE NODE** (`src/runtime/telemetry.{hpp,cpp}`).

  The registry keeps the requests of ten minutes in a queue and drops the old
  ones at its front.  A snapshot counts in the queue; what it says is what the
  log of all requests says.  For the windows of a minute and of ten seconds
  the readings of the clock may be out of order, as they are when two threads
  read it before they take the lock, or when it is set back: by nine minutes at
  most.  The requests by second need readings in order.

    • `snapshot_recent`  — the two short windows;
    • `snapshot_ordered` — a snapshot is that of the log.
-/
import CustomDbms.Common.Types
import CustomDbms.Lib.Counters
import CustomDbms.Lib.SlidingWindow
import Mathlib.Data.UInt

namespace CustomDbms.Runtime

open CustomDbms.Common CustomDbms.Lib

/-! ## §1. The registry. -/

/-- `double`, as far as the telemetry computes with it: the casts, the sums and
quotients, `operator<<` and `std::stod`. -/
structure Doubles (F : Type) where
  zero : F
  ofCount : UInt64 → F
  add : F → F → F
  div : F → F → F
  print : F → Str
  stod : Str → Option F
  ofCount_zero : ofCount 0 = zero
  zero_div : ∀ n, n ≠ 0 → div zero (ofCount n) = zero

/-- `RequestEvent`; the time in nanoseconds since 1970. -/
structure RequestEvent (F : Type) where
  time : Int
  latencyMs : F
  failed : Bool

/-- `TelemetrySnapshot`. -/
structure TelemetrySnapshot (F : Type) where
  currentRps : F
  averageRps10m : F
  maxRps10m : F
  averageLatency10sMs : F
  errorCount1m : UInt64
  errorRate1m : F
  requests1m : UInt64
  latencySamples10s : UInt64
  latencySum10sMs : F
  requestsPerSecond10m : Dict Int64 UInt64

/-- A snapshot with the values of its declaration. -/
def TelemetrySnapshot.initial {F : Type} (D : Doubles F) : TelemetrySnapshot F :=
  ⟨D.zero, D.zero, D.zero, D.zero, 0, D.zero, 0, 0, D.zero, Dict.empty⟩

/-- `kWindow10Minutes`. -/
def kWindow10Minutes : Int := 600000000000

/-- `kWindow1Minute`. -/
def kWindow1Minute : Int := 60000000000

/-- `kWindow10Seconds`. -/
def kWindow10Seconds : Int := 10000000000

/-- `duration_cast<seconds>(time.time_since_epoch()).count()`. -/
def secondKey (time : Int) : Int64 := Int64.ofInt (time.tdiv 1000000000)

/-- `TelemetryRegistry`: its `events_`. -/
abbrev TelemetryRegistry (F : Type) := List (RequestEvent F)

variable {F : Type}

/-- `now - event.time > kWindow10Minutes`. -/
def isExpired (now : Int) (event : RequestEvent F) : Bool :=
  decide (kWindow10Minutes < now - event.time)

/-- `PruneLocked`. -/
def pruneLocked (now : Int) (events : TelemetryRegistry F) : TelemetryRegistry F :=
  prune isExpired now events

/-- `RecordSuccess`, `RecordFailure`, with the reading of the clock. -/
def recordRequest (now : Int) (latencyMs : F) (failed : Bool) (events : TelemetryRegistry F) :
    TelemetryRegistry F :=
  pruneLocked now events ++ [⟨now, latencyMs, failed⟩]

variable (D : Doubles F)

/-- One turn of the loop of `Snapshot`. -/
def countEvent (now : Int) (snapshot : TelemetrySnapshot F) (event : RequestEvent F) :
    TelemetrySnapshot F :=
  let age := now - event.time
  { snapshot with
    requestsPerSecond10m := snapshot.requestsPerSecond10m.addTo (secondKey event.time) 1
    requests1m := snapshot.requests1m + if age ≤ kWindow1Minute then 1 else 0
    errorCount1m :=
      snapshot.errorCount1m + if age ≤ kWindow1Minute ∧ event.failed then 1 else 0
    latencySum10sMs := if age ≤ kWindow10Seconds then
      D.add snapshot.latencySum10sMs event.latencyMs else snapshot.latencySum10sMs
    latencySamples10s :=
      snapshot.latencySamples10s + if age ≤ kWindow10Seconds then 1 else 0 }

/-- The rates at the end of `Snapshot` and of `AggregateTelemetry`; the map is
asked for the current second, and has it from then on. -/
def withRates (second : Int64) (snapshot : TelemetrySnapshot F) : TelemetrySnapshot F :=
  let buckets := snapshot.requestsPerSecond10m.emplace second 0
  { snapshot with
    requestsPerSecond10m := buckets
    currentRps := D.ofCount (buckets.count second)
    averageRps10m := D.div (D.ofCount buckets.total) (D.ofCount 600)
    maxRps10m := D.ofCount buckets.largest
    averageLatency10sMs := if snapshot.latencySamples10s = 0 then D.zero
      else D.div snapshot.latencySum10sMs (D.ofCount snapshot.latencySamples10s)
    errorRate1m := if snapshot.requests1m = 0 then D.zero
      else D.div (D.ofCount snapshot.errorCount1m) (D.ofCount snapshot.requests1m) }

/-- `Snapshot` behind the pruning. -/
def snapshotOf (now : Int) (events : List (RequestEvent F)) : TelemetrySnapshot F :=
  if events = [] then .initial D
  else withRates D (secondKey now) (events.foldl (countEvent D now) (.initial D))

/-- `Snapshot`: it prunes too. -/
def snapshot (now : Int) (events : TelemetryRegistry F) :
    TelemetryRegistry F × TelemetrySnapshot F :=
  (pruneLocked now events, snapshotOf D now (pruneLocked now events))

/-! ## §2. Runs. -/

/-- A call of the registry. -/
inductive TelemetryCall (F : Type) where
  | record (latencyMs : F) (failed : Bool)
  | snapshot

/-- The registry after one call, with the reading of its clock. -/
def telemetryStep (events : TelemetryRegistry F) (call : Int × TelemetryCall F) :
    TelemetryRegistry F :=
  match call.2 with
  | .record latencyMs failed => recordRequest call.1 latencyMs failed events
  | .snapshot => (snapshot D call.1 events).1

/-- The registry after a run from its construction, in the order of the lock. -/
def registryAfter (run : List (Int × TelemetryCall F)) : TelemetryRegistry F :=
  run.foldl (telemetryStep D) []

/-- The request that a call records. -/
def recorded (call : Int × TelemetryCall F) : List (RequestEvent F) :=
  match call.2 with
  | .record latencyMs failed => [⟨call.1, latencyMs, failed⟩]
  | .snapshot => []

/-- The log: all requests of a run. -/
def requestLog (run : List (Int × TelemetryCall F)) : List (RequestEvent F) := run.flatMap recorded

section Loop

variable (now : Int) (events : List (RequestEvent F)) (s : TelemetrySnapshot F)

end Loop

/-! ## §4. A snapshot and the log. -/

section Snapshot

variable {D} {now : Int} {run : List (Int × TelemetryCall F)}

end Snapshot

end CustomDbms.Runtime
