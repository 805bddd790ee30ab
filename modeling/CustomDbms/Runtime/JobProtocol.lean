/-
  CustomDbms.Runtime.JobProtocol
  ──────────────────────────────
  **PRODUCERS, READERS, THE WORKER AND SHUTDOWN** (`Start`, `Stop`, `Enqueue`,
  `Find`, `WorkerLoop`).

  A step is one critical section, or one end of a call of the executor, which
  runs without the lock; steps of all parties come in any order.  The log is
  what the executor sees.

    • `Coherent` — at any moment the jobs handed in are the finished ones, the
      one in the worker's hands and the waiting ones, in this order, and each
      record says which of the three its job is;
    • `jobs_follow_protocol` — what the parties see of it.
-/
import CustomDbms.Runtime.JobQueue

namespace CustomDbms.Runtime

open CustomDbms.Common CustomDbms.Lib

/-! ## §1. Steps. -/

/-- What the executor can answer to a text. -/
abbrev JobExecutor := Str → Int32 × Str → Prop

/-- The result of a job without an executor. -/
def executorUnavailable : Int32 × Str :=
  (500, str "type=INTERNAL_ERROR code=9 message=async executor unavailable sql=\"\"")

/-- The results a job can get. -/
def MayReturn (executor : Option JobExecutor) (sql : Str) (result : Int32 × Str) : Prop :=
  match executor with
  | none => result = executorUnavailable
  | some e => e sql result

/-- Where the worker is in its loop. -/
inductive Worker where
  | absent
  | waiting
  | holding
  | calling
  | returned (result : Int32 × Str)
  | exited
  deriving DecidableEq

/-- One end of an execution. -/
inductive LogEntry where
  | begins (job : JobRecord)
  | returns (job : JobRecord) (result : Int32 × Str)
  deriving DecidableEq

/-- The queue, `running_`, the worker and the log of executions. -/
structure JobSystem where
  queue : JobQueue
  running : Bool
  worker : Worker
  log : List LogEntry

/-- `JobQueue::JobQueue`. -/
def JobSystem.fresh : JobSystem := ⟨⟨[], Dict.empty, none⟩, false, .absent, []⟩

/-- The steps of all parties. -/
inductive Event where
  | start
  | enqueue (job : JobRecord)
  | find (jobId : Str) (answer : Option JobRecord)
  | take
  | call
  | answer (result : Int32 × Str)
  | finish
  | stop
  | exit

/-- **A step.**  The worker waits until there is a job or the queue has been
stopped; it looks at the jobs first. -/
inductive JobSystem.Step (executor : Option JobExecutor) :
    JobSystem → Event → JobSystem → Prop where
  | start {s : JobSystem} (hrunning : s.running = false) (hworker : s.worker = .absent) :
      Step executor s .start { s with running := true, worker := .waiting }
  | enqueue (s : JobSystem) (job : JobRecord) :
      Step executor s (.enqueue job) { s with queue := s.queue.enqueue job }
  | find (s : JobSystem) (jobId : Str) : Step executor s (.find jobId (s.queue.find jobId)) s
  | take {s : JobSystem} (hworker : s.worker = .waiting) (hjobs : s.queue.jobs ≠ []) :
      Step executor s .take { s with queue := s.queue.take, worker := .holding }
  | call {s : JobSystem} {job : JobRecord} (hworker : s.worker = .holding)
      (hjob : s.queue.current = some job) :
      Step executor s .call { s with worker := .calling, log := s.log ++ [.begins job] }
  | answer {s : JobSystem} {job : JobRecord} {result : Int32 × Str} (hworker : s.worker = .calling)
      (hjob : s.queue.current = some job) (hresult : MayReturn executor job.sql result) :
      Step executor s (.answer result)
        { s with worker := .returned result, log := s.log ++ [.returns job result] }
  | finish {s : JobSystem} {result : Int32 × Str} (hworker : s.worker = .returned result) :
      Step executor s .finish
        { s with queue := s.queue.finish result.1 result.2, worker := .waiting }
  | stop (s : JobSystem) : Step executor s .stop { s with running := false }
  | exit {s : JobSystem} (hworker : s.worker = .waiting) (hjobs : s.queue.jobs = [])
      (hrunning : s.running = false) : Step executor s .exit { s with worker := .exited }

/-- **A run**: any interleaving of steps from a fresh queue. -/
inductive JobSystem.Run (executor : Option JobExecutor) : List Event → JobSystem → Prop where
  | fresh : Run executor [] .fresh
  | step {events : List Event} {s s' : JobSystem} {e : Event} (hrun : Run executor events s)
      (hstep : s.Step executor e s') : Run executor (events ++ [e]) s'

/-- The job of an `Enqueue`, as the queue stores it. -/
def Event.enqueued : Event → Option JobRecord
  | .enqueue job => some { job with status := .queued }
  | _ => none

/-- The jobs handed in, in order. -/
def enqueuedJobs (events : List Event) : List JobRecord := events.filterMap Event.enqueued

/-- No two `Enqueue`s have one job id. -/
def DistinctIds (events : List Event) : Prop := ((enqueuedJobs events).map (·.jobId)).Nodup

/-! ## §2. Coherence. -/

/-- The record of a job in the worker's hands. -/
def JobRecord.run (job : JobRecord) : JobRecord := { job with status := .running }

/-- The record of a job with its result. -/
def JobRecord.settle (job : JobRecord) (result : Int32 × Str) : JobRecord :=
  { job with
    resultCode := result.1
    resultPayload := result.2
    status := if result.1 = 200 then .done else .failed }

/-- Both ends of an execution. -/
def execution (p : JobRecord × (Int32 × Str)) : List LogEntry := [.begins p.1, .returns p.1 p.2]

/-- What the log holds of the job in the worker's hands. -/
def Worker.openCall (worker : Worker) (current : Option JobRecord) : List LogEntry :=
  match worker, current with
  | .calling, some job => [.begins job]
  | .returned result, some job => execution (job, result)
  | _, _ => []

/-- The worker has a job in its hands. -/
def Worker.busy : Worker → Bool
  | .holding | .calling | .returned _ => true
  | _ => false

/-- The records there must be. -/
def expectedRecords (finished : List (JobRecord × (Int32 × Str))) (q : JobQueue) :
    List JobRecord :=
  finished.map (fun p => p.1.settle p.2) ++ q.current.toList.map JobRecord.run ++ q.jobs

/-- **The state is the one its history calls for.** -/
structure Coherent (executor : Option JobExecutor) (events : List Event) (s : JobSystem)
    (finished : List (JobRecord × (Int32 × Str))) : Prop where
  jobs : enqueuedJobs events = finished.map Prod.fst ++ s.queue.current.toList ++ s.queue.jobs
  log : s.log = finished.flatMap execution ++ s.worker.openCall s.queue.current
  busy : s.queue.current.isSome = s.worker.busy
  records : s.queue.records.Indexes (·.jobId) (expectedRecords finished s.queue)
  answers : ∀ job result, LogEntry.returns job result ∈ s.log → MayReturn executor job.sql result
  stopped : s.worker ≠ .absent → s.running = false → Event.stop ∈ events

section Coherence

variable {executor : Option JobExecutor} {events : List Event} {e : Event} {s s' : JobSystem}
variable {finished : List (JobRecord × (Int32 × Str))}

theorem enqueuedJobs_append (events : List Event) (e : Event) :
    enqueuedJobs (events ++ [e]) = enqueuedJobs events ++ e.enqueued.toList := by
  unfold enqueuedJobs
  rw [List.filterMap_append]
  cases e <;> rfl

theorem DistinctIds.front {later : List Event} (h : DistinctIds (events ++ later)) :
    DistinctIds events := by
  unfold DistinctIds enqueuedJobs at h ⊢
  rw [List.filterMap_append, List.map_append] at h
  exact (List.nodup_append.mp h).1

/-- The records stand for the jobs handed in. -/
theorem Coherent.ids (h : Coherent executor events s finished) :
    (expectedRecords finished s.queue).map (·.jobId) = (enqueuedJobs events).map (·.jobId) := by
  rw [h.jobs]
  unfold expectedRecords
  simp only [List.map_append, List.map_map]
  rfl

/-- **A step that hands in no job and leaves the queue** moves the worker. -/
theorem Coherent.of_queue (h : Coherent executor events s finished) (hnone : e.enqueued = none)
    (worker : Worker) (running : Bool) (entries : List LogEntry)
    (hlog : s.worker.openCall s.queue.current ++ entries = worker.openCall s.queue.current)
    (hbusy : worker.busy = s.worker.busy)
    (hanswers : ∀ job result, LogEntry.returns job result ∈ entries →
      MayReturn executor job.sql result)
    (hstopped : worker ≠ .absent → running = false → Event.stop ∈ events ++ [e]) :
    Coherent executor (events ++ [e]) ⟨s.queue, running, worker, s.log ++ entries⟩ finished where
  jobs := by
    rw [enqueuedJobs_append, hnone, h.jobs]
    exact List.append_nil _
  log := by
    show s.log ++ entries = _
    rw [h.log, List.append_assoc, hlog]
  busy := by
    show s.queue.current.isSome = worker.busy
    rw [hbusy, h.busy]
  records := h.records
  answers := by
    intro job result hmem
    rcases List.mem_append.mp hmem with hmem | hmem
    · exact h.answers job result hmem
    · exact hanswers job result hmem
  stopped := hstopped

theorem Coherent.enqueue (h : Coherent executor events s finished) (job : JobRecord)
    (hids : DistinctIds (events ++ [.enqueue job])) :
    Coherent executor (events ++ [.enqueue job]) { s with queue := s.queue.enqueue job }
      finished where
  jobs := by
    rw [enqueuedJobs_append, h.jobs, List.append_assoc]
    rfl
  log := h.log
  busy := h.busy
  records := by
    have hnew : ({ job with status := .queued } : JobRecord).jobId
        ∉ (expectedRecords finished s.queue).map (·.jobId) := by
      rw [h.ids]
      unfold DistinctIds at hids
      rw [enqueuedJobs_append, List.map_append] at hids
      intro hmem
      exact (List.nodup_append.mp hids).2.2 _ hmem _ (List.mem_singleton.mpr rfl) rfl
    have hindex := h.records.assign hnew
    unfold expectedRecords at hindex ⊢
    rw [List.append_assoc] at hindex
    exact hindex
  answers := h.answers
  stopped := by
    intro hworker hrunning
    exact List.mem_append_left _ (h.stopped hworker hrunning)

theorem Coherent.take (h : Coherent executor events s finished)
    (hids : DistinctIds (events ++ [.take])) (hworker : s.worker = .waiting)
    (hjobs : s.queue.jobs ≠ []) :
    Coherent executor (events ++ [.take]) { s with queue := s.queue.take, worker := .holding }
      finished := by
  have hcurrent : s.queue.current = none := by
    have := h.busy
    rw [hworker] at this
    simpa [Worker.busy] using this
  obtain ⟨job, rest, hqueue⟩ := List.exists_cons_of_ne_nil hjobs
  have htake : s.queue.take = ⟨rest, s.queue.records.modify job.jobId JobRecord.run, some job⟩ := by
    unfold JobQueue.take
    rw [hcurrent, hqueue]
    rfl
  have hexpected : expectedRecords finished s.queue
      = finished.map (fun p => p.1.settle p.2) ++ job :: rest := by
    unfold expectedRecords
    rw [hcurrent, hqueue]
    simp
  rw [htake]
  refine ⟨?_, ?_, rfl, ?_, h.answers, ?_⟩
  · rw [enqueuedJobs_append, h.jobs, hcurrent, hqueue]
    simp [Event.enqueued]
  · show s.log = _
    rw [h.log, hworker]
    rfl
  · have hnodup := hids.front
    unfold DistinctIds at hnodup
    rw [← h.ids, hexpected] at hnodup
    have hrecords := h.records
    rw [hexpected] at hrecords
    have hmodified : (s.queue.records.modify job.jobId JobRecord.run).Indexes (·.jobId)
        (finished.map (fun p => p.1.settle p.2) ++ job.run :: rest) :=
      hrecords.modify hnodup rfl
    unfold expectedRecords
    simpa using hmodified
  · intro _ hrunning
    exact List.mem_append_left _ (h.stopped (by simp [hworker]) hrunning)

theorem Coherent.finish (h : Coherent executor events s finished)
    (hids : DistinctIds (events ++ [.finish])) {result : Int32 × Str}
    (hworker : s.worker = .returned result) :
    ∃ job, Coherent executor (events ++ [.finish])
      { s with queue := s.queue.finish result.1 result.2, worker := .waiting }
      (finished ++ [(job, result)]) := by
  obtain ⟨job, hcurrent⟩ : ∃ job, s.queue.current = some job := by
    rw [← Option.isSome_iff_exists, h.busy, hworker]
    rfl
  have hfinish : s.queue.finish result.1 result.2
      = ⟨s.queue.jobs, s.queue.records.modify job.jobId (fun record => record.settle result),
          none⟩ := by
    unfold JobQueue.finish
    rw [hcurrent]
    rfl
  have hexpected : expectedRecords finished s.queue
      = finished.map (fun p => p.1.settle p.2) ++ job.run :: s.queue.jobs := by
    unfold expectedRecords
    rw [hcurrent]
    simp
  refine ⟨job, ?_⟩
  rw [hfinish]
  refine ⟨?_, ?_, rfl, ?_, h.answers, ?_⟩
  · rw [enqueuedJobs_append, h.jobs, hcurrent]
    simp [Event.enqueued]
  · show s.log = _
    rw [h.log, hworker, hcurrent]
    simp [Worker.openCall]
  · have hnodup := hids.front
    unfold DistinctIds at hnodup
    rw [← h.ids, hexpected] at hnodup
    have hrecords := h.records
    rw [hexpected] at hrecords
    have hmodified : (s.queue.records.modify job.jobId fun record => record.settle result).Indexes
        (·.jobId) (finished.map (fun p => p.1.settle p.2) ++ job.settle result :: s.queue.jobs) :=
      hrecords.modify hnodup rfl
    unfold expectedRecords
    simpa using hmodified
  · intro _ hrunning
    exact List.mem_append_left _ (h.stopped (by simp [hworker]) hrunning)

/-- **A step keeps the state coherent.** -/
theorem Coherent.step (h : Coherent executor events s finished)
    (hids : DistinctIds (events ++ [e])) (hstep : s.Step executor e s') :
    ∃ finished', Coherent executor (events ++ [e]) s' finished' := by
  have hkept : s.worker ≠ .absent → s.running = false → Event.stop ∈ events ++ [e] :=
    fun hworker hrunning => List.mem_append_left _ (h.stopped hworker hrunning)
  have hsame : s.log ++ [] = s.log := List.append_nil _
  cases hstep with
  | start hrunning hworker =>
      have hnext := h.of_queue (e := .start) rfl .waiting true [] (by rw [hworker]; rfl)
        (by rw [hworker]; rfl) (by simp) (by simp)
      rw [hsame] at hnext
      exact ⟨finished, hnext⟩
  | enqueue job => exact ⟨finished, h.enqueue job hids⟩
  | find jobId =>
      have hnext := h.of_queue (e := .find jobId (s.queue.find jobId)) rfl s.worker s.running []
        (List.append_nil _) rfl (by simp) hkept
      rw [hsame] at hnext
      exact ⟨finished, hnext⟩
  | take hworker hjobs => exact ⟨finished, h.take hids hworker hjobs⟩
  | call hworker hjob =>
      exact ⟨finished, h.of_queue rfl .calling s.running _ (by rw [hworker, hjob]; rfl)
        (by rw [hworker]; rfl) (by simp) fun _ => hkept (by simp [hworker])⟩
  | answer hworker hjob hresult =>
      refine ⟨finished, h.of_queue rfl (.returned _) s.running _ (by rw [hworker, hjob]; rfl)
        (by rw [hworker]; rfl) ?_ fun _ => hkept (by simp [hworker])⟩
      intro job result hmem
      cases List.mem_singleton.mp hmem
      exact hresult
  | finish hworker =>
      obtain ⟨job, hnext⟩ := h.finish hids hworker
      exact ⟨_, hnext⟩
  | stop =>
      have hnext := h.of_queue (e := .stop) rfl s.worker false [] (List.append_nil _) rfl
        (by simp) (by simp)
      rw [hsame] at hnext
      exact ⟨finished, hnext⟩
  | exit hworker hjobs hrunning =>
      have hnext := h.of_queue (e := .exit) rfl .exited s.running [] (by rw [hworker]; rfl)
        (by rw [hworker]; rfl) (by simp) fun _ => hkept (by simp [hworker])
      rw [hsame] at hnext
      exact ⟨finished, hnext⟩

/-- **Every state of a run is coherent.** -/
theorem JobSystem.Run.coherent (h : JobSystem.Run executor events s) (hids : DistinctIds events) :
    ∃ finished, Coherent executor events s finished := by
  induction h with
  | fresh =>
      refine ⟨[], rfl, rfl, rfl, Dict.indexes_empty _, ?_, ?_⟩
      · intro job result hmem
        cases hmem
      · intro hworker
        exact absurd rfl hworker
  | step _ hstep ih =>
      obtain ⟨finished, hcoherent⟩ := ih hids.front
      exact hcoherent.step hids hstep

end Coherence

/-! ## §3. The protocol. -/

/-- The moves of a status. -/
inductive JobStatus.MovesTo : JobStatus → JobStatus → Prop where
  | stays (status : JobStatus) : MovesTo status status
  | taken : MovesTo .queued .running
  | succeeds : MovesTo .running .done
  | fails : MovesTo .running .failed

/-- **What the parties see in a state of a run.** -/
structure FollowsProtocol (executor : Option JobExecutor) (events : List Event) (s : JobSystem) :
    Prop where
  /-- One execution ends before the next begins, in the order of the `Enqueue`s
  and none twice. -/
  fifo : ∃ (finished : List (JobRecord × (Int32 × Str))) (pending : Option JobRecord),
    s.log = finished.flatMap execution ++ pending.toList.map .begins ∧
    finished.map Prod.fst ++ pending.toList <+: enqueuedJobs events ∧
    (finished.map Prod.fst ++ pending.toList).Nodup
  /-- A result is one the executor gave to the text of the job. -/
  answers : ∀ job result, LogEntry.returns job result ∈ s.log → MayReturn executor job.sql result
  /-- The worker exits after a `Stop`, with every job executed. -/
  exits : ∀ s', s.Step executor .exit s' → Event.stop ∈ events ∧
    ∀ job ∈ enqueuedJobs events, ∃ result, LogEntry.returns job result ∈ s.log
  /-- A record appears as QUEUED and then moves. -/
  statuses : ∀ e s', DistinctIds (events ++ [e]) → s.Step executor e s' →
    (∀ jobId record, s.queue.find jobId = some record → ∃ record',
      s'.queue.find jobId = some record' ∧ record.status.MovesTo record'.status) ∧
    ∀ jobId record', s.queue.find jobId = none → s'.queue.find jobId = some record' →
      record'.status = .queued
  /-- DONE and FAILED come with the result of the job. -/
  results : ∀ jobId record, s.queue.find jobId = some record →
    record.status = .done ∨ record.status = .failed →
    ∃ job, job.jobId = jobId ∧ job.sql = record.sql ∧
      LogEntry.returns job (record.resultCode, record.resultPayload) ∈ s.log ∧
      (record.status = .done ↔ record.resultCode = 200)

section Protocol

variable {executor : Option JobExecutor} {events : List Event} {e : Event} {s s' : JobSystem}
variable {finished : List (JobRecord × (Int32 × Str))}

theorem status_of_enqueued {job : JobRecord} (h : job ∈ enqueuedJobs events) :
    job.status = .queued := by
  obtain ⟨e, -, he⟩ := List.mem_filterMap.mp h
  cases e with
  | enqueue job' => cases he; rfl
  | _ => cases he

/-- The log names the finished jobs and at most one more. -/
theorem Coherent.fifo (h : Coherent executor events s finished) (hids : DistinctIds events) :
    ∃ (finished : List (JobRecord × (Int32 × Str))) (pending : Option JobRecord),
      s.log = finished.flatMap execution ++ pending.toList.map .begins ∧
      finished.map Prod.fst ++ pending.toList <+: enqueuedJobs events ∧
      (finished.map Prod.fst ++ pending.toList).Nodup := by
  have hnodup : (enqueuedJobs events).Nodup := hids.of_map
  have hfront : finished.map Prod.fst <+: enqueuedJobs events := by
    rw [h.jobs, List.append_assoc]
    exact List.prefix_append _ _
  have hnone : s.worker.openCall s.queue.current = [] →
      ∃ (finished : List (JobRecord × (Int32 × Str))) (pending : Option JobRecord),
        s.log = finished.flatMap execution ++ pending.toList.map .begins ∧
        finished.map Prod.fst ++ pending.toList <+: enqueuedJobs events ∧
        (finished.map Prod.fst ++ pending.toList).Nodup := by
    intro hopen
    refine ⟨finished, none, ?_, ?_, ?_⟩
    · rw [h.log, hopen]
      rfl
    · simpa using hfront
    · simpa using hnodup.sublist hfront.sublist
  cases hcurrent : s.queue.current with
  | none =>
      apply hnone
      rw [hcurrent]
      unfold Worker.openCall
      split <;> simp_all
  | some job =>
      have hpending : finished.map Prod.fst ++ [job] <+: enqueuedJobs events := by
        rw [h.jobs, hcurrent]
        exact List.prefix_append _ _
      cases hworker : s.worker with
      | calling =>
          refine ⟨finished, some job, ?_, hpending, hnodup.sublist hpending.sublist⟩
          rw [h.log, hworker, hcurrent]
          rfl
      | returned result =>
          -- the execution has ended, its result is not recorded yet
          refine ⟨finished ++ [(job, result)], none, ?_, ?_, ?_⟩
          · rw [h.log, hworker, hcurrent]
            simp [Worker.openCall]
          · simpa using hpending
          · simpa using hnodup.sublist hpending.sublist
      | absent => exact hnone (by rw [hworker]; rfl)
      | waiting => exact hnone (by rw [hworker]; rfl)
      | holding => exact hnone (by rw [hworker]; rfl)
      | exited => exact hnone (by rw [hworker]; rfl)

theorem Coherent.exits (h : Coherent executor events s finished) (hstep : s.Step executor .exit s') :
    Event.stop ∈ events ∧
      ∀ job ∈ enqueuedJobs events, ∃ result, LogEntry.returns job result ∈ s.log := by
  cases hstep with
  | exit hworker hjobs hrunning =>
      have hcurrent : s.queue.current = none := by
        have := h.busy
        rw [hworker] at this
        simpa [Worker.busy] using this
      refine ⟨h.stopped (by simp [hworker]) hrunning, ?_⟩
      intro job hjob
      rw [h.jobs, hcurrent, hjobs] at hjob
      have hmem : job ∈ finished.map Prod.fst := by simpa using hjob
      obtain ⟨p, hp, rfl⟩ := List.mem_map.mp hmem
      refine ⟨p.2, ?_⟩
      rw [h.log]
      exact List.mem_append_left _ (List.mem_flatMap.mpr ⟨p, hp, by simp [execution]⟩)

/-- What a record says of its job. -/
theorem Coherent.record_cases (h : Coherent executor events s finished) {jobId : Str}
    {record : JobRecord} (hfind : s.queue.find jobId = some record) :
    record.jobId = jobId ∧ ((∃ p ∈ finished, record = p.1.settle p.2) ∨
      (∃ job, s.queue.current = some job ∧ record = job.run) ∨
      (record ∈ s.queue.jobs ∧ record.status = .queued)) := by
  obtain ⟨hmem, hid⟩ := (h.records jobId record).mp hfind
  refine ⟨hid, ?_⟩
  unfold expectedRecords at hmem
  rcases List.mem_append.mp hmem with hmem | hmem
  · rcases List.mem_append.mp hmem with hmem | hmem
    · obtain ⟨p, hp, rfl⟩ := List.mem_map.mp hmem
      exact Or.inl ⟨p, hp, rfl⟩
    · obtain ⟨job, hjob, rfl⟩ := List.mem_map.mp hmem
      exact Or.inr (Or.inl ⟨job, Option.mem_toList.mp hjob, rfl⟩)
  · have henqueued : record ∈ enqueuedJobs events := by
      rw [h.jobs]
      exact List.mem_append_right _ hmem
    exact Or.inr (Or.inr ⟨hmem, status_of_enqueued henqueued⟩)

theorem Coherent.results (h : Coherent executor events s finished) {jobId : Str}
    {record : JobRecord} (hfind : s.queue.find jobId = some record)
    (hstatus : record.status = .done ∨ record.status = .failed) :
    ∃ job, job.jobId = jobId ∧ job.sql = record.sql ∧
      LogEntry.returns job (record.resultCode, record.resultPayload) ∈ s.log ∧
      (record.status = .done ↔ record.resultCode = 200) := by
  obtain ⟨hid, ⟨p, hp, rfl⟩ | ⟨job, -, rfl⟩ | ⟨-, hqueued⟩⟩ := h.record_cases hfind
  · refine ⟨p.1, hid, rfl, ?_, ?_⟩
    · rw [h.log]
      exact List.mem_append_left _ (List.mem_flatMap.mpr ⟨p, hp, by simp [execution, JobRecord.settle]⟩)
    · show (if p.2.1 = 200 then JobStatus.done else .failed) = .done ↔ p.2.1 = 200
      split
      · simp [*]
      · simp [*]
  · rcases hstatus with hstatus | hstatus <;> cases hstatus
  · rw [hqueued] at hstatus
    rcases hstatus with hstatus | hstatus <;> cases hstatus

/-- The moves of the records between two queues. -/
def RecordsMove (q q' : JobQueue) : Prop :=
  (∀ jobId record, q.find jobId = some record → ∃ record',
    q'.find jobId = some record' ∧ record.status.MovesTo record'.status) ∧
  ∀ jobId record', q.find jobId = none → q'.find jobId = some record' → record'.status = .queued

theorem RecordsMove.refl (q : JobQueue) : RecordsMove q q := by
  refine ⟨fun jobId record h => ⟨record, h, .stays _⟩, ?_⟩
  intro jobId record' hnone hsome
  rw [hnone] at hsome
  cases hsome

/-- A record rewritten in its place. -/
theorem recordsMove_modify {q q' : JobQueue} {jobId : Str} {record : JobRecord}
    {f : JobRecord → JobRecord} (hrecords : q'.records = q.records.modify jobId f)
    (hfind : q.find jobId = some record) (hmove : record.status.MovesTo (f record).status) :
    RecordsMove q q' := by
  unfold JobQueue.find at hfind
  unfold RecordsMove JobQueue.find
  rw [hrecords]
  constructor
  · intro x r hr
    rw [Dict.find?_modify]
    by_cases hx : x = jobId
    · rw [hx, hfind] at hr
      cases hr
      exact ⟨f record, by rw [if_pos hx, hfind]; rfl, hmove⟩
    · exact ⟨r, by rw [if_neg hx, hr], .stays _⟩
  · intro x r' hnone hsome
    rw [Dict.find?_modify] at hsome
    by_cases hx : x = jobId
    · rw [hx, hfind] at hnone
      cases hnone
    · rw [if_neg hx, hnone] at hsome
      cases hsome

theorem Coherent.recordsMove_enqueue (h : Coherent executor events s finished) {job : JobRecord}
    (hids : DistinctIds (events ++ [.enqueue job])) :
    RecordsMove s.queue (s.queue.enqueue job) := by
  have hfind : ∀ x, (s.queue.enqueue job).find x
      = if x = job.jobId then some { job with status := .queued } else s.queue.find x :=
    fun x => Dict.find?_assign
  constructor
  · intro x r hr
    by_cases hx : x = job.jobId
    · -- a record under the id would be of an earlier job
      exfalso
      obtain ⟨hmem, hid⟩ := (h.records x r).mp hr
      have hold : job.jobId ∈ (enqueuedJobs events).map (·.jobId) := by
        rw [← h.ids, ← hx]
        exact List.mem_map.mpr ⟨r, hmem, hid⟩
      unfold DistinctIds at hids
      rw [enqueuedJobs_append, List.map_append] at hids
      exact (List.nodup_append.mp hids).2.2 _ hold _ (List.mem_singleton.mpr rfl) rfl
    · exact ⟨r, by rw [hfind, if_neg hx, hr], .stays _⟩
  · intro x r' hnone hsome
    rw [hfind] at hsome
    by_cases hx : x = job.jobId
    · rw [if_pos hx] at hsome
      cases hsome
      rfl
    · rw [if_neg hx, hnone] at hsome
      cases hsome

theorem Coherent.recordsMove_take (h : Coherent executor events s finished)
    (hworker : s.worker = .waiting) (hjobs : s.queue.jobs ≠ []) :
    RecordsMove s.queue s.queue.take := by
  have hcurrent : s.queue.current = none := by
    have := h.busy
    rw [hworker] at this
    simpa [Worker.busy] using this
  obtain ⟨job, rest, hqueue⟩ := List.exists_cons_of_ne_nil hjobs
  have hfind : s.queue.find job.jobId = some job := by
    refine (h.records _ _).mpr ⟨?_, rfl⟩
    unfold expectedRecords
    simp [hqueue]
  have hstatus : job.status = .queued := by
    have henqueued : job ∈ enqueuedJobs events := by
      rw [h.jobs]
      simp [hqueue]
    exact status_of_enqueued henqueued
  have hrecords : s.queue.take.records = s.queue.records.modify job.jobId JobRecord.run := by
    unfold JobQueue.take
    rw [hcurrent, hqueue]
    rfl
  refine recordsMove_modify hrecords hfind ?_
  rw [hstatus]
  exact .taken

theorem Coherent.recordsMove_finish (h : Coherent executor events s finished)
    {result : Int32 × Str} (hworker : s.worker = .returned result) :
    RecordsMove s.queue (s.queue.finish result.1 result.2) := by
  obtain ⟨job, hcurrent⟩ : ∃ job, s.queue.current = some job := by
    rw [← Option.isSome_iff_exists, h.busy, hworker]
    rfl
  have hfind : s.queue.find job.jobId = some job.run := by
    refine (h.records _ _).mpr ⟨?_, rfl⟩
    unfold expectedRecords
    simp [hcurrent]
  have hrecords : (s.queue.finish result.1 result.2).records
      = s.queue.records.modify job.jobId fun record => record.settle result := by
    unfold JobQueue.finish
    rw [hcurrent]
    rfl
  refine recordsMove_modify hrecords hfind ?_
  show JobStatus.MovesTo .running (if result.1 = 200 then .done else .failed)
  split
  · exact .succeeds
  · exact .fails

theorem Coherent.recordsMove (h : Coherent executor events s finished)
    (hids : DistinctIds (events ++ [e])) (hstep : s.Step executor e s') :
    RecordsMove s.queue s'.queue := by
  cases hstep with
  | enqueue job => exact h.recordsMove_enqueue hids
  | take hworker hjobs => exact h.recordsMove_take hworker hjobs
  | finish hworker => exact h.recordsMove_finish hworker
  | start hrunning hworker => exact .refl _
  | find jobId => exact .refl _
  | call hworker hjob => exact .refl _
  | answer hworker hjob hresult => exact .refl _
  | stop => exact .refl _
  | exit hworker hjobs hrunning => exact .refl _

/-- **Every state of every interleaving follows the protocol.** -/
theorem jobs_follow_protocol (hrun : JobSystem.Run executor events s) (hids : DistinctIds events) :
    FollowsProtocol executor events s := by
  obtain ⟨finished, h⟩ := hrun.coherent hids
  exact {
    fifo := h.fifo hids
    answers := h.answers
    exits := fun _ hstep => h.exits hstep
    statuses := fun _ _ hids' hstep => h.recordsMove hids' hstep
    results := fun _ _ hfind hstatus => h.results hfind hstatus }

end Protocol

/-- One job, handed in before the `Stop` that the worker sees when it has
finished it. -/
def sampleJob : JobRecord := ⟨str "j1", str "SELECT * FROM d.t;", .queued, [], 0⟩

/-- An executor that always succeeds. -/
def okExecutor : JobExecutor := fun _ result => result = (200, str "[]")

/-- The steps of the parties. -/
def sampleEvents : List Event :=
  [.start, .enqueue sampleJob, .take, .stop, .call, .answer (200, str "[]"), .finish, .exit]

/-- **The worker exits after the job.** -/
theorem jobs_follow_protocol_sample :
    ∃ s, JobSystem.Run (some okExecutor) sampleEvents s ∧ DistinctIds sampleEvents ∧
      s.worker = .exited ∧ FollowsProtocol (some okExecutor) sampleEvents s := by
  have hids : DistinctIds sampleEvents := List.nodup_singleton _
  have hstart : JobSystem.Run (some okExecutor) [.start] _ := .step .fresh (.start rfl rfl)
  have henqueue := hstart.step (.enqueue _ sampleJob)
  have htake := henqueue.step (.take rfl (by simp [JobQueue.enqueue]))
  have hstop := htake.step (.stop _)
  have hcall := hstop.step (.call rfl rfl)
  have hanswer := hcall.step (.answer rfl rfl rfl)
  have hfinish := hanswer.step (.finish rfl)
  have hexit := hfinish.step (.exit rfl rfl rfl)
  exact ⟨_, hexit, hids, rfl, jobs_follow_protocol hexit hids⟩

end CustomDbms.Runtime
