/-
  CustomDbms.Server.Mediation
  ───────────────────────────
  **WHAT A SERVER WITH ACCOUNTS DOES FOR CALLERS WITHOUT A TOKEN.**

  The check of the token stands behind the dispatch of the CLUSTER, ASYNC,
  TELEMETRY and AUTH commands, and three of these reach the engine.

  What a caller learns about rows is said with two runs: servers that differ
  only in rows, and in the results of jobs that have read rows, must answer
  alike.

    • `untrusted_step` — the step lemma, one case for each branch of the
      dispatch.
    • `mediation_of_no_leak` — a run in which nobody commits a prepared
      transaction, dumps a table, has the worker execute a job or reads its
      result changes no table and shows no row.
-/
import CustomDbms.Server.Escalation

namespace CustomDbms.Server

open CustomDbms.Common CustomDbms.Lib CustomDbms.Parser CustomDbms.Catalog CustomDbms.Network
open CustomDbms.Execution CustomDbms.Core CustomDbms.Runtime

variable {ν : Type} {w : World ν}

/-! ## §1. The server as a machine. -/

/-- What can happen to a server: a request, or one of the two halves of a turn
of the worker. -/
inductive ServerEvent where
  | request (ctx : RequestContext) (request : RequestEnvelope)
  | workerTake
  | workerFinish (env : Env) (io : Io)

/-- One event; only requests are answered. -/
def serverMachine (w : World ν) : Machine (System ν) ServerEvent (Option ResponseEnvelope) :=
  fun s event =>
    match event with
    | .request ctx request => handleRequest w ctx s request
    | .workerTake =>
        ({ s with server := { s.server with jobQueue := s.server.jobQueue.take } }, none)
    | .workerFinish env io => ({ s with server := finishJob env io s.server }, none)

/-- A request carries no token that `ValidateTokenAndGetUser` accepts. -/
def Untrusted (w : World ν) (s : System ν) : ServerEvent → Prop
  | .request ctx request =>
      validateTokenAndGetUser w.hmac s.controller ctx.now request.jwtToken = none
  | _ => True

/-! ## §2. Servers that differ in rows only. -/

/-- A record without the result, where the job has read or written rows. -/
def publicRecord (record : JobRecord) : JobRecord :=
  if (parse record.sql).isOk then { record with resultPayload := [], resultCode := 0 } else record

/-- Queues that differ only in the results of jobs the parser accepts. -/
structure SameQueue (q q' : JobQueue) : Prop where
  jobs : q.jobs = q'.jobs
  current : q.current = q'.current
  records : ∀ jobId, (q.records.find? jobId).map publicRecord
    = (q'.records.find? jobId).map publicRecord

/-- Systems that differ only in rows: the engines have the same names and
schemas. -/
structure SameButRows (s s' : System ν) : Prop where
  net : s.net = s'.net
  controller : s.controller = s'.controller
  sessions : s.server.sessions = s'.server.sessions
  nodes : s.server.storageNodes = s'.server.storageNodes
  pending : s.server.pendingClusterTransactions = s'.server.pendingClusterTransactions
  schemas : schemaView s.server.engine.runtimeState = schemaView s'.server.engine.runtimeState
  queue : SameQueue s.server.jobQueue s'.server.jobQueue

theorem SameButRows.refl (s : System ν) : SameButRows s s :=
  ⟨rfl, rfl, rfl, rfl, rfl, rfl, rfl, rfl, fun _ => rfl⟩

/-- **Mediation of a run**: the tables are those at the start, and the answers
are those of every server that differs only in rows. -/
def Mediated (w : World ν) (s : System ν) (events : List ServerEvent) : Prop :=
  (Machine.run (serverMachine w) s events).server.engine.runtimeState
    = s.server.engine.runtimeState ∧
  ∀ s', SameButRows s s' →
    Machine.answers (serverMachine w) s events = Machine.answers (serverMachine w) s' events

/-! ## §3. The ways around the token. -/

/-- `CLUSTER COMMIT_TX` of a transaction that has been prepared. -/
def commitsPending (s : EntrypointServer) (payload : Str) : Bool :=
  match stripStart (str "CLUSTER COMMIT_TX ") payload with
  | some txId => txId ≠ [] && s.pendingClusterTransactions.contains txId
  | none => false

/-- `CLUSTER DUMP_TABLE` with a database and a table. -/
def dumpsTable (payload : Str) : Bool :=
  match commandOf (str "CLUSTER") payload with
  | some (command, _ :: _ :: _) => command = str "DUMP_TABLE"
  | _ => false

/-- A record with the result of a statement. -/
def holdsResult (record : JobRecord) : Bool :=
  (record.status = .done ∨ record.status = .failed) && (parse record.sql).isOk

/-- `ASYNC RESULT` of a job that has executed a statement. -/
def readsResult (s : EntrypointServer) (payload : Str) : Bool :=
  match commandOf (str "ASYNC") payload with
  | some (command, jobId :: _) =>
      command = str "RESULT" && ((s.jobQueue.find jobId).map holdsResult).getD false
  | _ => false

/-- The worker has a statement in its hands. -/
def executesJob (s : EntrypointServer) : Bool :=
  match s.jobQueue.current with
  | some job => (parse job.sql).isOk
  | none => false

/-- A step that gives an unchecked caller the engine or what it has answered. -/
def leaks (s : EntrypointServer) : ServerEvent → Bool
  | .request _ request =>
      commitsPending s request.payload || dumpsTable request.payload
        || readsResult s request.payload
  | .workerTake => false
  | .workerFinish _ _ => executesJob s

/-! ## §4. Handlers that do not touch the engine. -/

/-- Two results of one handler on servers that differ in rows: the answers are
equal, the servers still differ in rows only, the engine is as it was, and no
account is gone. -/
structure Quiet (s s' : System ν) (r r' : Handled ν) : Prop where
  answer : r.2 = r'.2
  related : SameButRows r.1 r'.1
  engine : r.1.server.engine = s.server.engine
  accounts : Extends s.controller r.1.controller

variable {s s' : System ν}

theorem quiet_answer (h : SameButRows s s') (response : Option ResponseEnvelope) :
    Quiet s s' (s, response) (s', response) := ⟨rfl, h, rfl, Extends.refl _⟩

/-- Two systems that differ in rows only, by their parts. -/
@[elab_as_elim]
theorem SameButRows.elim {motive : System ν → System ν → Prop} (h : SameButRows s s')
    (hparts : ∀ e e' q q' ac sessions nodes pending net,
      schemaView e.runtimeState = schemaView e'.runtimeState → SameQueue q q' →
      motive ⟨⟨e, q, ac, sessions, nodes, pending⟩, net⟩
        ⟨⟨e', q', ac, sessions, nodes, pending⟩, net⟩) : motive s s' := by
  obtain ⟨⟨e, q, ac, sessions, nodes, pending⟩, net⟩ := s
  obtain ⟨⟨e', q', ac', sessions', nodes', pending'⟩, net'⟩ := s'
  obtain ⟨hnet, hac, hsessions, hnodes, hpending, hschemas, hqueue⟩ := h
  dsimp only [System.controller] at hnet hac hsessions hnodes hpending hschemas hqueue
  subst hnet hac hsessions hnodes hpending
  exact hparts _ _ _ _ _ _ _ _ _ hschemas hqueue

/-- A handler that has rewritten sessions, nodes, prepared transactions or the world. -/
theorem quiet_parts {e e' : DbmsEngine} {q q' : JobQueue} {ac : AccessController}
    {sessions sessions₁ : Dict Str SessionContext} {nodes nodes₁ : List StorageNodeEndpoint}
    {pending pending₁ : Dict Str PendingClusterTransaction} {net net₁ : ν}
    {response : Option ResponseEnvelope}
    (hschemas : schemaView e.runtimeState = schemaView e'.runtimeState) (hqueue : SameQueue q q') :
    Quiet ⟨⟨e, q, ac, sessions, nodes, pending⟩, net⟩
      ⟨⟨e', q', ac, sessions, nodes, pending⟩, net⟩
      (⟨⟨e, q, ac, sessions₁, nodes₁, pending₁⟩, net₁⟩, response)
      (⟨⟨e', q', ac, sessions₁, nodes₁, pending₁⟩, net₁⟩, response) :=
  ⟨rfl, ⟨rfl, rfl, rfl, rfl, rfl, hschemas, hqueue⟩, rfl, Extends.refl _⟩

/-- A computation on the nodes that is the same on both sides. -/
theorem quiet_onNet {α : Type} {e e' : DbmsEngine} {q q' : JobQueue} {ac : AccessController}
    {sessions : Dict Str SessionContext} {nodes nodes₁ : List StorageNodeEndpoint}
    {pending : Dict Str PendingClusterTransaction} {net : ν} (x : Net ν α)
    (f : α → ResponseEnvelope)
    (hschemas : schemaView e.runtimeState = schemaView e'.runtimeState) (hqueue : SameQueue q q') :
    Quiet ⟨⟨e, q, ac, sessions, nodes, pending⟩, net⟩
      ⟨⟨e', q', ac, sessions, nodes, pending⟩, net⟩
      (System.onNet ⟨⟨e, q, ac, sessions, nodes₁, pending⟩, net⟩ x f)
      (System.onNet ⟨⟨e', q', ac, sessions, nodes₁, pending⟩, net⟩ x f) := by
  unfold System.onNet
  dsimp only
  split
  · exact quiet_parts hschemas hqueue
  · exact quiet_parts hschemas hqueue

theorem quiet_prepareTx (h : SameButRows s s') (request : RequestEnvelope) (rest : Str) :
    Quiet s s'
      ({ s with server := (prepareTx s.server request rest).1 },
        (prepareTx s.server request rest).2)
      ({ s' with server := (prepareTx s'.server request rest).1 },
        (prepareTx s'.server request rest).2) := by
  refine h.elim ?_
  intro e e' q q' ac sessions nodes pending net hschemas hqueue
  unfold prepareTx
  split
  · exact quiet_parts hschemas hqueue
  · split
    · exact quiet_parts hschemas hqueue
    · split
      · exact quiet_parts hschemas hqueue
      · exact quiet_parts hschemas hqueue
      · split
        · exact quiet_parts hschemas hqueue
        · exact quiet_parts hschemas hqueue

/-- `COMMIT_TX` of an id nobody has prepared. -/
theorem quiet_commitTx (h : SameButRows s s') (ctx : RequestContext) {txId : Str}
    (hno : (txId ≠ [] && s.server.pendingClusterTransactions.contains txId) = false) :
    Quiet s s'
      ({ s with server := (commitTx ctx s.server txId).1 }, (commitTx ctx s.server txId).2)
      ({ s' with server := (commitTx ctx s'.server txId).1 }, (commitTx ctx s'.server txId).2) := by
  revert hno
  refine h.elim ?_
  intro e e' q q' ac sessions nodes pending net hschemas hqueue hno
  unfold commitTx
  by_cases hempty : txId = []
  · simp only [hempty, if_true]
    exact quiet_parts hschemas hqueue
  · have hnone : pending.find? txId = none := by simpa [hempty, Dict.contains] using hno
    simp only [if_neg hempty, hnone]
    exact quiet_parts hschemas hqueue

theorem quiet_abortTx (h : SameButRows s s') (txId : Str) :
    Quiet s s'
      ({ s with server := (abortTx s.server txId).1 }, (abortTx s.server txId).2)
      ({ s' with server := (abortTx s'.server txId).1 }, (abortTx s'.server txId).2) := by
  refine h.elim ?_
  intro e e' q q' ac sessions nodes pending net hschemas hqueue
  unfold abortTx
  split
  · exact quiet_parts hschemas hqueue
  · exact quiet_parts hschemas hqueue

theorem quiet_addNode (h : SameButRows s s') (endpoint : Str × Int32) (managed : Bool) :
    Quiet s s' (addNode w s endpoint managed) (addNode w s' endpoint managed) := by
  refine h.elim ?_
  intro e e' q q' ac sessions nodes pending net hschemas hqueue
  unfold addNode
  dsimp only
  split
  · exact quiet_parts hschemas hqueue
  · split
    · exact quiet_parts hschemas hqueue
    · rw [hschemas]
      exact quiet_onNet _ _ hschemas hqueue

theorem quiet_removeNode (h : SameButRows s s') (endpoint : Str × Int32) :
    Quiet s s' (removeNode w s endpoint) (removeNode w s' endpoint) := by
  refine h.elim ?_
  intro e e' q q' ac sessions nodes pending net hschemas hqueue
  unfold removeNode
  dsimp only
  split
  · exact quiet_parts hschemas hqueue
  · split
    · exact quiet_parts hschemas hqueue
    · rw [hschemas]
      exact quiet_onNet _ _ hschemas hqueue

/-- The CLUSTER commands in words, `DUMP_TABLE` apart. -/
theorem quiet_clusterCommand (h : SameButRows s s') (ctx : RequestContext) {command : Str}
    {args : List Str}
    (hno : ∀ databaseName tableName rest, command = str "DUMP_TABLE" →
      args ≠ databaseName :: tableName :: rest) :
    Quiet s s' (clusterCommand w ctx s command args) (clusterCommand w ctx s' command args) := by
  have hlist : listNodes s.server = listNodes s'.server := by
    rw [listNodes, listNodes, h.nodes]
  unfold clusterCommand
  dsimp only
  split
  · exact quiet_answer h _
  · split
    · rename_i hdump
      split
      · rename_i databaseName tableName rest
        exact absurd rfl (hno databaseName tableName rest hdump)
      · exact quiet_answer h _
    · split
      · rw [hlist]
        exact quiet_answer h _
      · split
        · split
          · split
            · exact quiet_answer h _
            · exact quiet_addNode h _ _
          · exact quiet_answer h _
        · split
          · split
            · split
              · exact quiet_answer h _
              · exact quiet_removeNode h _
            · exact quiet_answer h _
          · exact quiet_answer h _

/-- A handler that answers on both servers, quietly, or on neither. -/
def QuietOption (s s' : System ν) (r r' : Option (Handled ν)) : Prop :=
  (r = none ∧ r' = none) ∨ ∃ a a', r = some a ∧ r' = some a' ∧ Quiet s s' a a'

theorem quiet_parseClusterCommand (h : SameButRows s s') (ctx : RequestContext)
    {request : RequestEnvelope} (hcommit : commitsPending s.server request.payload = false)
    (hdump : dumpsTable request.payload = false) :
    QuietOption s s' (parseClusterCommand w ctx s request)
      (parseClusterCommand w ctx s' request) := by
  unfold parseClusterCommand
  split
  · exact .inr ⟨_, _, rfl, rfl, quiet_prepareTx h request _⟩
  · split
    · rename_i txId hstrip
      refine .inr ⟨_, _, rfl, rfl, quiet_commitTx h ctx ?_⟩
      simpa [commitsPending, hstrip] using hcommit
    · split
      · exact .inr ⟨_, _, rfl, rfl, quiet_abortTx h _⟩
      · cases hcommand : commandOf (str "CLUSTER") request.payload with
        | none => exact .inl ⟨rfl, rfl⟩
        | some p =>
            refine .inr ⟨_, _, rfl, rfl, quiet_clusterCommand h ctx ?_⟩
            intro databaseName tableName rest hname hargs
            rw [dumpsTable, hcommand] at hdump
            obtain ⟨command, args⟩ := p
            dsimp only at hname hargs
            subst hname hargs
            simp at hdump

/-! ## §5. The queue. -/

theorem SameQueue.find {q q' : JobQueue} (h : SameQueue q q') (jobId : Str) :
    (q.find jobId = none ∧ q'.find jobId = none) ∨
    ∃ job job', q.find jobId = some job ∧ q'.find jobId = some job' ∧
      publicRecord job = publicRecord job' := by
  have hrecords := h.records jobId
  unfold JobQueue.find
  cases hq : q.records.find? jobId with
  | none =>
      rw [hq] at hrecords
      exact .inl ⟨rfl, Option.map_eq_none_iff.mp hrecords.symm⟩
  | some job =>
      rw [hq, Option.map_some] at hrecords
      obtain ⟨job', hq', hjob⟩ := Option.map_eq_some_iff.mp hrecords.symm
      exact .inr ⟨job, job', rfl, hq', hjob.symm⟩

/-- What two records with one public part have in common. -/
theorem publicRecord_eq {job job' : JobRecord} (h : publicRecord job = publicRecord job') :
    job.jobId = job'.jobId ∧ job.sql = job'.sql ∧ job.status = job'.status ∧
      ((parse job.sql).isOk = true ∨ job = job') := by
  have hfields : ∀ r : JobRecord, (publicRecord r).jobId = r.jobId ∧ (publicRecord r).sql = r.sql ∧
      (publicRecord r).status = r.status := by
    intro r
    unfold publicRecord
    split
    · exact ⟨rfl, rfl, rfl⟩
    · exact ⟨rfl, rfl, rfl⟩
  obtain ⟨hid, hsql, hstatus⟩ := hfields job
  obtain ⟨hid', hsql', hstatus'⟩ := hfields job'
  rw [h] at hid hsql hstatus
  have hsqls : job.sql = job'.sql := hsql.symm.trans hsql'
  refine ⟨hid.symm.trans hid', hsqls, hstatus.symm.trans hstatus', ?_⟩
  by_cases hok : (parse job.sql).isOk = true
  · exact .inl hok
  · right
    unfold publicRecord at h
    rw [if_neg hok, if_neg (hsqls ▸ hok)] at h
    exact h

theorem publicRecord_congr {job job' : JobRecord} (h : publicRecord job = publicRecord job')
    (f : JobRecord → JobRecord)
    (hf : ∀ r r' : JobRecord, r.jobId = r'.jobId → r.sql = r'.sql → r.status = r'.status →
      (f r).jobId = (f r').jobId ∧ (f r).sql = r.sql ∧ (f r).status = (f r').status) :
    publicRecord (f job) = publicRecord (f job') := by
  obtain ⟨hid, hsql, hstatus, hok | rfl⟩ := publicRecord_eq h
  · obtain ⟨hid', hfsql, hstatus'⟩ := hf job job' hid hsql hstatus
    obtain ⟨-, hfsql', -⟩ := hf job' job hid.symm hsql.symm hstatus.symm
    have hsqls : (f job).sql = (f job').sql := by rw [hfsql, hfsql', hsql]
    unfold publicRecord
    rw [if_pos (by rw [hfsql]; exact hok), if_pos (by rw [← hsqls, hfsql]; exact hok)]
    rw [hid', hsqls, hstatus']
  · rfl

theorem SameQueue.enqueue {q q' : JobQueue} (h : SameQueue q q') (job : JobRecord) :
    SameQueue (q.enqueue job) (q'.enqueue job) := by
  refine ⟨?_, h.current, ?_⟩
  · show q.jobs ++ _ = q'.jobs ++ _
    rw [h.jobs]
  · intro jobId
    show ((q.records.assign _ _).find? jobId).map publicRecord
      = ((q'.records.assign _ _).find? jobId).map publicRecord
    rw [Dict.find?_assign, Dict.find?_assign]
    split
    · rfl
    · exact h.records jobId

/-- One record rewritten on both sides. -/
theorem SameQueue.modify_records {q q' : JobQueue} (h : SameQueue q q') (key : Str)
    {f : JobRecord → JobRecord}
    (hf : ∀ r r' : JobRecord, publicRecord r = publicRecord r' →
      publicRecord (f r) = publicRecord (f r')) (jobId : Str) :
    ((q.records.modify key f).find? jobId).map publicRecord
      = ((q'.records.modify key f).find? jobId).map publicRecord := by
  rw [Dict.find?_modify, Dict.find?_modify]
  split
  · rcases h.find key with ⟨hq, hq'⟩ | ⟨job, job', hq, hq', hjob⟩
    · rw [show q.records.find? key = none from hq, show q'.records.find? key = none from hq']
    · rw [show q.records.find? key = some job from hq, show q'.records.find? key = some job' from hq']
      exact congrArg some (hf job job' hjob)
  · exact h.records jobId

theorem SameQueue.take {q q' : JobQueue} (h : SameQueue q q') : SameQueue q.take q'.take := by
  unfold JobQueue.take
  rw [← h.current, ← h.jobs]
  split
  · rename_i job rest hcurrent hjobs
    refine ⟨rfl, rfl, ?_⟩
    apply h.modify_records
    intro r r' hr
    exact publicRecord_congr hr (fun record => { record with status := .running })
      fun a b hid hsql hstatus => ⟨hid, rfl, rfl⟩
  · exact h

theorem SameQueue.finish {q q' : JobQueue} (h : SameQueue q q') (code : Int32) (payload : Str) :
    SameQueue (q.finish code payload) (q'.finish code payload) := by
  unfold JobQueue.finish
  rw [← h.current]
  split
  · exact h
  · rename_i job hcurrent
    refine ⟨h.jobs, rfl, ?_⟩
    apply h.modify_records
    intro r r' hr
    exact publicRecord_congr hr
      (fun record => { record with
        resultCode := code, resultPayload := payload
        status := if code = 200 then .done else .failed })
      fun a b hid hsql hstatus => ⟨hid, rfl, rfl⟩

/-! ## §6. The other commands. -/

theorem quiet_submitJob (h : SameButRows s s') (payload : Str) (args : List Str) :
    Quiet s s' (submitJob w s payload args) (submitJob w s' payload args) := by
  refine h.elim ?_
  intro e e' q q' ac sessions nodes pending net hschemas hqueue
  unfold submitJob
  dsimp only
  split
  · exact quiet_parts hschemas hqueue
  · exact ⟨rfl, ⟨rfl, rfl, rfl, rfl, rfl, hschemas, hqueue.enqueue _⟩, rfl, Extends.refl _⟩

theorem jobStatus_congr (h : SameButRows s s') (jobId : Str) :
    jobStatus s.server jobId = jobStatus s'.server jobId := by
  unfold jobStatus
  rcases h.queue.find jobId with ⟨hq, hq'⟩ | ⟨job, job', hq, hq', hjob⟩
  · rw [hq, hq']
  · obtain ⟨hid, -, hstatus, -⟩ := publicRecord_eq hjob
    rw [hq, hq']
    simp only [jobLine, hid, hstatus]

/-- `RESULT` of a job without the result of a statement. -/
theorem jobResult_congr (h : SameButRows s s') {jobId : Str}
    (hno : ((s.server.jobQueue.find jobId).map holdsResult).getD false = false) :
    jobResult s.server jobId = jobResult s'.server jobId := by
  unfold jobResult
  rcases h.queue.find jobId with ⟨hq, hq'⟩ | ⟨job, job', hq, hq', hjob⟩
  · rw [hq, hq']
  · obtain ⟨hid, -, hstatus, hok | rfl⟩ := publicRecord_eq hjob
    · rw [hq] at hno
      have hopen : job.status = .queued ∨ job.status = .running := by
        cases hst : job.status with
        | queued => exact .inl rfl
        | running => exact .inr rfl
        | done => simp [holdsResult, hst, hok] at hno
        | failed => simp [holdsResult, hst, hok] at hno
      rw [hq, hq']
      dsimp only
      rw [← hstatus]
      have hline : jobLine job = jobLine job' := by simp only [jobLine, hid, hstatus]
      rcases hopen with hst | hst <;> simp only [hst, hline]
    · rw [hq, hq']

theorem quiet_parseAsyncCommand (h : SameButRows s s') {request : RequestEnvelope}
    (hno : readsResult s.server request.payload = false) :
    QuietOption s s' (parseAsyncCommand w s request) (parseAsyncCommand w s' request) := by
  unfold parseAsyncCommand
  cases hcommand : commandOf (str "ASYNC") request.payload with
  | none => exact .inl ⟨rfl, rfl⟩
  | some p =>
      obtain ⟨command, args⟩ := p
      refine .inr ⟨_, _, rfl, rfl, ?_⟩
      dsimp only
      split
      · exact quiet_submitJob h _ _
      · split
        · split
          · rw [jobStatus_congr h]
            exact quiet_answer h _
          · exact quiet_answer h _
        · split
          · rename_i hresult
            split
            · rename_i jobId rest
              rw [readsResult, hcommand] at hno
              rw [jobResult_congr h (by simpa [hresult] using hno)]
              exact quiet_answer h _
            · exact quiet_answer h _
          · exact quiet_answer h _

theorem quiet_parseTelemetryCommand (h : SameButRows s s') (ctx : RequestContext) (payload : Str) :
    QuietOption s s' (parseTelemetryCommand w ctx s payload)
      (parseTelemetryCommand w ctx s' payload) := by
  unfold parseTelemetryCommand
  cases commandOf (str "TELEMETRY") payload with
  | none => exact .inl ⟨rfl, rfl⟩
  | some p =>
      refine .inr ⟨_, _, rfl, rfl, ?_⟩
      dsimp only
      split
      · exact quiet_answer h _
      · split
        · refine h.elim ?_
          intro e e' q q' ac sessions nodes pending net hschemas hqueue
          exact quiet_onNet _ _ hschemas hqueue
        · exact quiet_answer h _

/-- An AUTH command without a token takes no account away. -/
theorem extends_of_parseAuthCommand {hmac : Hmac} {ac : AccessController} {ctx : AuthContext}
    {request : RequestEnvelope} {r : AccessController × Option ResponseEnvelope}
    (hno : validateTokenAndGetUser hmac ac ctx.now request.jwtToken = none)
    (h : parseAuthCommand hmac ac ctx request = some r) : Extends ac r.1 := by
  obtain ⟨p, -, rfl⟩ := Option.map_eq_some_iff.mp h
  have htoken : carriesAdminToken hmac ac ctx.now request.jwtToken = false := by
    rw [carriesAdminToken, hno]
  rcases authCommand_cases htoken p.1 p.2 with
    ⟨-, hsame⟩ | ⟨userId, password, rest, -, -, hregister⟩
  · rw [hsame]
    exact Extends.refl ac
  · rw [hregister]
    exact extends_registerAccount hmac ac userId password _ ctx.salt ctx.io

/-- SQL without a token is refused. -/
theorem quiet_handleSql (h : SameButRows s s') (ctx : RequestContext) {request : RequestEnvelope}
    (hacc : s.controller.hasAccounts = true)
    (hno : validateTokenAndGetUser w.hmac s.controller ctx.now request.jwtToken = none) :
    Quiet s s' (handleSql w ctx s request) (handleSql w ctx s' request) := by
  revert hacc hno
  refine h.elim ?_
  intro e e' q q' ac sessions nodes pending net hschemas hqueue hacc hno
  dsimp only [System.controller] at hacc hno
  unfold handleSql
  split
  · exact quiet_parts hschemas hqueue
  · exact quiet_parts hschemas hqueue
  · simp only [authorizeRequest, EntrypointServer.withSession, hacc, hno]
    exact quiet_parts hschemas hqueue

/-! ## §7. One event. -/

theorem quiet_handleRequest (h : SameButRows s s') (ctx : RequestContext)
    {request : RequestEnvelope} (hacc : s.controller.hasAccounts = true)
    (hno : validateTokenAndGetUser w.hmac s.controller ctx.now request.jwtToken = none)
    (hleaks : leaks s.server (.request ctx request) = false) :
    Quiet s s' (handleRequest w ctx s request) (handleRequest w ctx s' request) := by
  simp only [leaks, Bool.or_eq_false_iff] at hleaks
  obtain ⟨⟨hcommit, hdump⟩, hresult⟩ := hleaks
  unfold handleRequest
  rcases quiet_parseClusterCommand (w := w) h ctx hcommit hdump with
    ⟨hcluster, hcluster'⟩ | ⟨a, a', hcluster, hcluster', hquiet⟩
  · rw [hcluster, hcluster']
    rcases quiet_parseAsyncCommand (w := w) h hresult with
      ⟨hasync, hasync'⟩ | ⟨a, a', hasync, hasync', hquiet⟩
    · rw [hasync, hasync']
      rcases quiet_parseTelemetryCommand (w := w) h ctx request.payload with
        ⟨htelemetry, htelemetry'⟩ | ⟨a, a', htelemetry, htelemetry', hquiet⟩
      · rw [htelemetry, htelemetry', show s'.server.accessController = s.server.accessController
          from h.controller.symm]
        dsimp only
        split
        · rename_i r hauth
          exact ⟨rfl, ⟨h.net, rfl, h.sessions, h.nodes, h.pending, h.schemas, h.queue⟩, rfl,
            extends_of_parseAuthCommand hno hauth⟩
        · exact quiet_handleSql h ctx hacc hno
      · rw [htelemetry, htelemetry']
        exact hquiet
    · rw [hasync, hasync']
      exact hquiet
  · rw [hcluster, hcluster']
    exact hquiet

/-- The worker, with a text that is no statement. -/
theorem quiet_finishJob (h : SameButRows s s') (env : Env) (io : Io)
    (hno : executesJob s.server = false) :
    Quiet s s' ({ s with server := finishJob env io s.server }, none)
      ({ s' with server := finishJob env io s'.server }, none) := by
  revert hno
  refine h.elim ?_
  intro e e' q q' ac sessions nodes pending net hschemas hqueue hno
  unfold executesJob at hno
  unfold finishJob
  dsimp only at hno ⊢
  rw [← hqueue.current]
  split
  · exact quiet_parts hschemas hqueue
  · rename_i job hcurrent
    rw [hcurrent] at hno
    unfold executeJob
    cases hparse : parse job.sql with
    | ok statement => simp [hparse, Result.isOk] at hno
    | error err =>
        exact ⟨rfl, ⟨rfl, rfl, rfl, rfl, rfl, hschemas, hqueue.finish _ _⟩, rfl, Extends.refl _⟩
    | fault => exact quiet_parts hschemas hqueue

/-- **One event without a token and without a leak.** -/
theorem untrusted_step (h : SameButRows s s') {event : ServerEvent}
    (hacc : s.controller.hasAccounts = true) (hno : Untrusted w s event)
    (hleaks : leaks s.server event = false) :
    Quiet s s' (serverMachine w s event) (serverMachine w s' event) := by
  cases event with
  | request ctx request => exact quiet_handleRequest h ctx hacc hno hleaks
  | workerTake =>
      refine h.elim ?_
      intro e e' q q' ac sessions nodes pending net hschemas hqueue
      exact ⟨rfl, ⟨rfl, rfl, rfl, rfl, rfl, hschemas, hqueue.take⟩, rfl, Extends.refl _⟩
  | workerFinish env io => exact quiet_finishJob h env io hleaks

/-! ## §8. Runs. -/

/-- The condition of a step: no token, and none of the ways around it. -/
def UntrustedQuietly (w : World ν) (s : System ν) (event : ServerEvent) : Prop :=
  Untrusted w s event ∧ leaks s.server event = false

/-- **Without a token and without a leak no table changes and no row shows**:
in every run of requests and worker steps from every server with an account. -/
theorem mediation_of_no_leak {s : System ν} (hacc : s.controller.hasAccounts = true)
    {events : List ServerEvent}
    (huntrusted : Machine.Along (serverMachine w) (Untrusted w) s events)
    (hleaks : Machine.Along (serverMachine w) (fun t event => leaks t.server event = false) s
      events) : Mediated w s events := by
  have hsteps : Machine.Along (serverMachine w) (UntrustedQuietly w) s events :=
    huntrusted.and hleaks
  constructor
  · have hinv := hsteps.invariant
      (I := fun t => t.controller.hasAccounts = true ∧ t.server.engine = s.server.engine)
      (fun t event ht hstep =>
        have hquiet := untrusted_step (SameButRows.refl t) ht.1 hstep.1 hstep.2
        ⟨hasAccounts_of_extends hquiet.accounts ht.1, hquiet.engine.trans ht.2⟩)
      ⟨hacc, rfl⟩
    rw [hinv.2]
  · intro s' h
    refine hsteps.related (R := fun t t' => t.controller.hasAccounts = true ∧ SameButRows t t')
      ?_ ⟨hacc, h⟩
    intro t t' event ht hstep
    have hquiet := untrusted_step ht.2 ht.1 hstep.1 hstep.2
    exact ⟨hquiet.answer, hasAccounts_of_extends hquiet.accounts ht.1, hquiet.related⟩

/-- Requests of one client that carries no token. -/
def anonymousEvents (payloads : List Str) : List ServerEvent :=
  payloads.map fun payload => .request quietContext ⟨str "eve", [], payload⟩

theorem untrusted_anonymousEvents (w : World ν) (s : System ν) (payloads : List Str) :
    Machine.Along (serverMachine w) (Untrusted w) s (anonymousEvents payloads) := by
  induction payloads generalizing s with
  | nil => trivial
  | cons payload payloads ih => exact ⟨rfl, ih _⟩

theorem hasAccounts_serverOver (e : DbmsEngine) :
    (serverOver e).controller.hasAccounts = true := rfl

theorem mediation_of_no_leak_sampleRun :
    Mediated nodelessWorld (serverOver sampleRun.1)
      (anonymousEvents [str "SELECT * FROM d.t;", str "AUTH REGISTER bob pw",
        str "CLUSTER PREPARE_TX x DELETE FROM d.t;", str "ASYNC SUBMIT DROP DATABASE d;"]) :=
  mediation_of_no_leak (hasAccounts_serverOver _) (untrusted_anonymousEvents _ _ _)
    ⟨rfl, rfl, rfl, rfl, trivial⟩

theorem not_mediated_of_rows {s : System ν} {events : List ServerEvent} {d t : Str}
    (h : storeRows (Machine.run (serverMachine w) s events).server.engine.store d t
      ≠ storeRows s.server.engine.store d t) : ¬ Mediated w s events := by
  intro hmediated
  apply h
  simp only [storeRows, DbmsEngine.store, hmediated.1]

/-- Two requests of a client without a token. -/
def emptyingEvents : List ServerEvent :=
  anonymousEvents [str "CLUSTER PREPARE_TX x DELETE FROM d.t;", str "CLUSTER COMMIT_TX x"]

set_option maxRecDepth 4000 in
/-- **Anyone empties a table in two requests, and reads it in one.** -/
theorem anyone_commits_and_dumps :
    (serverOver sampleRun.1).controller.hasAccounts = true ∧
    Machine.Along (serverMachine nodelessWorld) (Untrusted nodelessWorld) (serverOver sampleRun.1)
      emptyingEvents ∧
    ¬ Mediated nodelessWorld (serverOver sampleRun.1) emptyingEvents ∧
    (handleRequest nodelessWorld quietContext (serverOver sampleRun.1)
        ⟨str "eve", [], str "CLUSTER DUMP_TABLE d t"⟩).2 =
      some ⟨200, str "ROWS\nROW\tInt:1\tString:x\nROW\tInt:2\tString:y"⟩ := by
  have hbefore : (storeRows (serverOver sampleRun.1).server.engine.store (str "d")
      (str "t")).map List.length = some 2 := by
    decide +kernel
  have hafter : (storeRows (Machine.run (serverMachine nodelessWorld) (serverOver sampleRun.1)
      emptyingEvents).server.engine.store (str "d") (str "t")).map List.length = some 0 := by
    decide +kernel
  refine ⟨hasAccounts_serverOver _, untrusted_anonymousEvents _ _ _, ?_, by decide +kernel⟩
  apply not_mediated_of_rows
  intro hrows
  rw [hrows, hbefore] at hafter
  cases hafter

end CustomDbms.Server
