/-
  CustomDbms.Runtime.JobQueue
  ───────────────────────────
  **THE QUEUE OF ASYNCHRONOUS JOBS** (`src/runtime/job_queue.{hpp,cpp}`).

  The worker takes a job and finishes it under the lock and executes it in
  between without; `current` is the job in its hands.
-/
import CustomDbms.Common.Types
import CustomDbms.Lib.Dict

namespace CustomDbms.Runtime

open CustomDbms.Common CustomDbms.Lib

/-- The texts `status` takes. -/
inductive JobStatus where
  | queued | running | done | failed
  deriving Repr, DecidableEq

/-- `status` as the source spells it. -/
def JobStatus.text : JobStatus → Str
  | .queued => str "QUEUED"
  | .running => str "RUNNING"
  | .done => str "DONE"
  | .failed => str "FAILED"

/-- `JobRecord`. -/
structure JobRecord where
  jobId : Str
  sql : Str
  status : JobStatus
  resultPayload : Str := []
  resultCode : Int32 := 0
  deriving DecidableEq

/-- `JobQueue`, with the job the worker executes. -/
structure JobQueue where
  jobs : List JobRecord
  records : Dict Str JobRecord
  current : Option JobRecord

/-- `Enqueue`. -/
def JobQueue.enqueue (q : JobQueue) (job : JobRecord) : JobQueue :=
  let job := { job with status := .queued }
  { q with jobs := q.jobs ++ [job], records := q.records.assign job.jobId job }

/-- `Find`. -/
def JobQueue.find (q : JobQueue) (jobId : Str) : Option JobRecord := q.records.find? jobId

/-- The first half of a turn of `WorkerLoop`: the worker takes the oldest job. -/
def JobQueue.take (q : JobQueue) : JobQueue :=
  match q.current, q.jobs with
  | none, job :: rest =>
      { jobs := rest
        records := q.records.modify job.jobId fun record => { record with status := .running }
        current := some job }
  | _, _ => q

/-- The second half: the result of the executor is recorded. -/
def JobQueue.finish (q : JobQueue) (resultCode : Int32) (resultPayload : Str) : JobQueue :=
  match q.current with
  | none => q
  | some job =>
      { q with
        records := q.records.modify job.jobId fun record =>
          { record with
            resultCode, resultPayload
            status := if resultCode = 200 then .done else .failed }
        current := none }

end CustomDbms.Runtime
