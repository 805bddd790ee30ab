/-
  CustomDbms.Core.Sessions
  ────────────────────────
  **SEVERAL SESSIONS ON ONE ENGINE.**

  A system is an engine with the sessions of its clients; a run is any
  interleaving of their requests.  Two facts carry everything about
  transactions: a request looks at the committed state and at the entry of its
  own client among the open transactions, and it leaves the entries of the
  other clients alone.

    • `transactions_isolated` — an abandoned transaction is invisible to the
      others, and inside a transaction nothing is visible of them.
    • `commit_publishes_snapshot` — a `COMMIT` publishes the client's own
      copy, whatever the others have committed since its `BEGIN`.
-/
import CustomDbms.Core.EngineInvariant
import CustomDbms.Execution.Congruence

namespace CustomDbms.Core

open CustomDbms.Common CustomDbms.Catalog CustomDbms.Execution CustomDbms.Lib
open CustomDbms.Parser CustomDbms.Planner CustomDbms.Storage CustomDbms.Versioning

/-! ## §1. Engines that differ in their transactions. -/

/-- The engine with other open transactions. -/
def DbmsEngine.withTransactions (e : DbmsEngine) (T : Dict Str TransactionContext) : DbmsEngine :=
  { e with transactions := T }

@[simp] theorem withTransactions_transactions (e : DbmsEngine)
    (T : Dict Str TransactionContext) : (e.withTransactions T).transactions = T := rfl
@[simp] theorem withTransactions_store (e : DbmsEngine) (T : Dict Str TransactionContext) :
    (e.withTransactions T).store = e.store := rfl

/-- A change of the open transactions that reads and writes one entry. -/
structure LocalAt (key : Str) (f : Dict Str TransactionContext → Dict Str TransactionContext) :
    Prop where
  reads : ∀ T T', T'.find? key = T.find? key → (f T').find? key = (f T).find? key
  frame : ∀ T k, k ≠ key → (f T).find? k = T.find? k

namespace LocalAt

variable {key : Str}

protected theorem id : LocalAt key id := ⟨fun _ _ h => h, fun _ _ _ => rfl⟩

theorem modify (g : TransactionContext → TransactionContext) :
    LocalAt key fun T => T.modify key g := by
  refine ⟨fun T T' h => ?_, fun T k hk => ?_⟩
  · rw [Dict.find?_modify, Dict.find?_modify, h]
  · rw [Dict.find?_modify, if_neg hk]

theorem erase : LocalAt key fun T => T.erase key := by
  refine ⟨fun T T' _ => ?_, fun T k hk => ?_⟩
  · rw [Dict.find?_erase, Dict.find?_erase]
    simp
  · rw [Dict.find?_erase, if_neg hk]

theorem emplace (tx : TransactionContext) : LocalAt key fun T => T.emplace key tx := by
  refine ⟨fun T T' h => ?_, fun T k hk => ?_⟩
  · cases hT : T.find? key with
    | none => rw [Dict.find?_emplace hT, Dict.find?_emplace (h.trans hT), if_pos rfl, if_pos rfl]
    | some tx' =>
        rw [Dict.emplace_of_find? hT, Dict.emplace_of_find? (h.trans hT)]
        exact h
  · cases hT : T.find? key with
    | none => rw [Dict.find?_emplace hT, if_neg hk]
    | some tx' => rw [Dict.emplace_of_find? hT]

theorem comp {f g : Dict Str TransactionContext → Dict Str TransactionContext}
    (hf : LocalAt key f) (hg : LocalAt key g) : LocalAt key fun T => g (f T) :=
  ⟨fun T T' h => hg.reads _ _ (hf.reads T T' h),
    fun T k hk => (hg.frame _ k hk).trans (hf.frame T k hk)⟩

end LocalAt

/-- A part of a call that changes the open transactions by `f` and does not
look at them otherwise. -/
def RunsOn (f : Dict Str TransactionContext → Dict Str TransactionContext)
    (T : Dict Str TransactionContext) (r r' : DbmsEngine × Result QueryResult) : Prop :=
  r' = (r.1.withTransactions (f T), r.2)

theorem logStatement_runsOn (e : DbmsEngine) (T : Dict Str TransactionContext) (io : Io)
    (sql : Str) (writeWal : Bool) (result : QueryResult) :
    RunsOn id T (logStatement e io sql writeWal result)
      (logStatement (e.withTransactions T) io sql writeWal result) := by
  obtain ⟨a, s, r⟩ := io
  cases a <;> cases s <;> cases r <;> cases writeWal <;> rfl

theorem commitTransaction_runsOn (e : DbmsEngine) (io : Io) (writeWal : Bool) (key : Str)
    (tx : TransactionContext) :
    ∃ f, LocalAt key f ∧ ∀ T, RunsOn f T (commitTransaction e io writeWal key tx)
      (commitTransaction (e.withTransactions T) io writeWal key tx) := by
  have hmoved : LocalAt key fun T => T.modify key fun tx =>
      ⟨RuntimeState.empty, VersionStore.empty, tx.walStatements⟩ := .modify _
  obtain ⟨a, s, r⟩ := io
  unfold commitTransaction
  by_cases hwal : writeWal = true ∧ tx.walStatements ≠ []
  · simp only [if_pos hwal]
    cases a with
    | done =>
        refine ⟨_, hmoved.comp .erase, fun T => ?_⟩
        cases s <;> cases r <;> cases writeWal <;> rfl
    | failed d => exact ⟨_, hmoved, fun T => rfl⟩
    | thrown d => exact ⟨_, hmoved, fun T => rfl⟩
  · simp only [if_neg hwal]
    refine ⟨_, hmoved.comp .erase, fun T => ?_⟩
    cases s <;> cases r <;> cases writeWal <;> rfl

theorem contains_of_find? {T T' : Dict Str TransactionContext} {key : Str}
    (h : T'.find? key = T.find? key) : T'.contains key = T.contains key := by
  unfold Dict.contains
  rw [h]

/-- **A call reads and writes its own entry of the open transactions only.** -/
theorem executeSqlImpl_local (env : Env) (io : Io) (e : DbmsEngine) (session : SessionContext)
    (sql : Str) (writeWal : Bool) :
    ∃ f, LocalAt (transactionKey session) f ∧
      ∀ T, T.find? (transactionKey session) = e.transactions.find? (transactionKey session) →
        executeSqlImpl env io (e.withTransactions T) session sql writeWal
          = ((executeSqlImpl env io e session sql writeWal).1.withTransactions (f T),
            (executeSqlImpl env io e session sql writeWal).2) := by
  unfold executeSqlImpl
  cases parse sql with
  | error err => exact ⟨id, .id, fun T _ => rfl⟩
  | fault => exact ⟨id, .id, fun T _ => rfl⟩
  | ok statement =>
      generalize transactionKey session = key
      simp only
      split
      · -- `BEGIN`
        unfold executeBegin
        by_cases hc : e.transactions.contains key = true
        · refine ⟨id, .id, fun T hT => ?_⟩
          simp [contains_of_find? hT, hc]
        · cases hclone : cloneRuntimeState e.runtimeState with
          | ok state =>
              refine ⟨_, .emplace ⟨state, e.versionStore, []⟩, fun T hT => ?_⟩
              simp [contains_of_find? hT, hc, show cloneRuntimeState
                (e.withTransactions T).runtimeState = .ok state from hclone]
              rfl
          | error err =>
              refine ⟨id, .id, fun T hT => ?_⟩
              simp [contains_of_find? hT, hc, show cloneRuntimeState
                (e.withTransactions T).runtimeState = .error err from hclone]
          | fault =>
              refine ⟨id, .id, fun T hT => ?_⟩
              simp [contains_of_find? hT, hc, show cloneRuntimeState
                (e.withTransactions T).runtimeState = .fault from hclone]
      · -- `COMMIT`
        unfold executeCommit
        cases htx : e.transactions.find? key with
        | none =>
            refine ⟨id, .id, fun T hT => ?_⟩
            simp [hT]
        | some tx =>
            obtain ⟨f, hf, hrun⟩ := commitTransaction_runsOn e io writeWal key tx
            refine ⟨f, hf, fun T hT => ?_⟩
            simp only [withTransactions_transactions, hT]
            rw [hrun T]
      · -- `ROLLBACK`
        unfold executeRollback
        by_cases hc : e.transactions.contains key = true
        · refine ⟨_, .erase, fun T hT => ?_⟩
          simp [contains_of_find? hT, hc]
          rfl
        · refine ⟨id, .id, fun T hT => ?_⟩
          simp [contains_of_find? hT, hc]
      · cases htx : e.transactions.find? key with
        | some tx =>
            unfold executeInTransaction
            by_cases hcheck : statement = .checkIndex ∨ statement = .rebuildIndex
            · refine ⟨id, .id, fun T hT => ?_⟩
              simp [hT, hcheck]
            · by_cases hddl : isDdlStatement statement = true
              · refine ⟨id, .id, fun T hT => ?_⟩
                simp [hT, hcheck, hddl]
              · refine ⟨_, .modify fun tx' =>
                  tx'.after (runStatement env tx.store session statement).1 statement sql writeWal
                    (runStatement env tx.store session statement).2.2, fun T hT => ?_⟩
                simp only [withTransactions_transactions, hT, hcheck, if_false, hddl]
                rfl
        | none =>
            refine ⟨id, .id, fun T hT => ?_⟩
            simp only [withTransactions_transactions, hT, executeAutocommit,
              withTransactions_store]
            cases (runStatement env e.store session statement).2.2 with
            | error err => rfl
            | fault => rfl
            | ok result =>
                simp only
                by_cases hmut : isMutatingStatement statement = true
                · simp only [if_pos hmut]
                  have hlog := logStatement_runsOn
                    (e.withStore (runStatement env e.store session statement).1) T io sql writeWal
                    result
                  exact congrArg (fun r => (r.1, _, r.2)) hlog
                · simp only [hmut]
                  rfl

/-- The entries of the other clients stay. -/
theorem executeSqlImpl_frame (env : Env) (io : Io) (e : DbmsEngine) (session : SessionContext)
    (sql : Str) (writeWal : Bool) {k : Str} (hk : k ≠ transactionKey session) :
    (executeSqlImpl env io e session sql writeWal).1.transactions.find? k
      = e.transactions.find? k := by
  obtain ⟨f, hf, hrun⟩ := executeSqlImpl_local env io e session sql writeWal
  have heq := hrun e.transactions rfl
  rw [show e.withTransactions e.transactions = e from rfl] at heq
  rw [heq]
  exact hf.frame _ k hk

/-! ## §2. Systems. -/

/-- A request of a client: its text, with the clock and the file operations of
the call. -/
structure Request where
  client : Str
  env : Env
  io : Io
  sql : Str

/-- An engine and the current database of every client. -/
structure System where
  engine : DbmsEngine
  sessions : Str → Str

/-- The session of a client. -/
def System.session (sys : System) (client : Str) : SessionContext := ⟨client, sys.sessions client⟩

/-- One request. -/
def System.step (sys : System) (c : Request) : System × Result QueryResult :=
  let r := executeSql c.env c.io sys.engine (sys.session c.client) c.sql
  (⟨r.1, Function.update sys.sessions c.client r.2.1.currentDatabase⟩, r.2.2)

/-- A run: the requests in their order, with the results and who got them. -/
def System.run : System → List Request → System × List (Str × Result QueryResult)
  | sys, [] => (sys, [])
  | sys, c :: cs =>
      let r := sys.step c
      let rs := System.run r.1 cs
      (rs.1, (c.client, r.2) :: rs.2)

theorem run_append (sys : System) (cs ds : List Request) :
    sys.run (cs ++ ds)
      = (((sys.run cs).1.run ds).1, (sys.run cs).2 ++ ((sys.run cs).1.run ds).2) := by
  induction cs generalizing sys with
  | nil => rfl
  | cons c cs ih =>
      simp only [List.cons_append, System.run, ih]

/-- Systems that a request of a client in `V` cannot tell apart. -/
structure Similar (V : Str → Prop) (sys sys' : System) : Prop where
  sessions : sys'.sessions = sys.sessions
  engine : ∃ T, sys'.engine = sys.engine.withTransactions T ∧
    ∀ k, V k → T.find? k = sys.engine.transactions.find? k

theorem Similar.store {V : Str → Prop} {sys sys' : System} (h : Similar V sys sys') :
    sys'.engine.store = sys.engine.store := by
  obtain ⟨T, heq, -⟩ := h.engine
  rw [heq]
  rfl

theorem transactionKey_session {sys : System} {client : Str} (h : client ≠ []) :
    transactionKey (sys.session client) = client := if_neg h

/-- **A request answers alike on systems it cannot tell apart**, and leaves
such systems. -/
theorem Similar.step {V : Str → Prop} {sys sys' : System} (h : Similar V sys sys') {c : Request}
    (hV : V c.client) (hc : c.client ≠ []) :
    Similar V (sys.step c).1 (sys'.step c).1 ∧ (sys'.step c).2 = (sys.step c).2 := by
  obtain ⟨T, heq, hT⟩ := h.engine
  obtain ⟨f, hf, hrun⟩ :=
    executeSqlImpl_local c.env c.io sys.engine (sys.session c.client) c.sql true
  rw [transactionKey_session hc] at hf hrun
  have hrun' := hrun T (hT c.client hV)
  have hself := hrun sys.engine.transactions rfl
  rw [show sys.engine.withTransactions sys.engine.transactions = sys.engine from rfl] at hself
  have hsession : sys'.session c.client = sys.session c.client := by
    rw [System.session, h.sessions]
    rfl
  simp only [System.step, executeSql]
  rw [hsession, heq, hrun']
  refine ⟨⟨by rw [h.sessions], ⟨f T, rfl, ?_⟩⟩, rfl⟩
  intro k hk
  rw [hself]
  by_cases hkc : k = c.client
  · rw [hkc]
    exact hf.reads _ _ (hT c.client hV)
  · show (f T).find? k = (f sys.engine.transactions).find? k
    rw [hf.frame _ k hkc, hf.frame _ k hkc, hT k hk]

theorem Similar.run {V : Str → Prop} {sys sys' : System} (h : Similar V sys sys')
    {cs : List Request} (hV : ∀ c ∈ cs, V c.client) (hc : ∀ c ∈ cs, c.client ≠ []) :
    Similar V (sys.run cs).1 (sys'.run cs).1 ∧ (sys'.run cs).2 = (sys.run cs).2 := by
  induction cs generalizing sys sys' with
  | nil => exact ⟨h, rfl⟩
  | cons c cs ih =>
      obtain ⟨h1, h2⟩ := h.step (hV c (List.mem_cons_self ..)) (hc c (List.mem_cons_self ..))
      obtain ⟨h3, h4⟩ := ih h1 (fun x hx => hV x (List.mem_cons_of_mem _ hx))
        (fun x hx => hc x (List.mem_cons_of_mem _ hx))
      exact ⟨h3, by simp only [System.run, h2, h4]⟩

/-- The transaction of one client is out of sight of the others. -/
theorem Similar.trans {V : Str → Prop} {s1 s2 s3 : System} (h : Similar V s1 s2)
    (h' : Similar V s2 s3) : Similar V s1 s3 := by
  obtain ⟨T, heq, hT⟩ := h.engine
  obtain ⟨T', heq', hT'⟩ := h'.engine
  refine ⟨h'.sessions.trans h.sessions, T', by rw [heq', heq]; rfl, ?_⟩
  intro k hk
  rw [hT' k hk, heq]
  exact hT k hk

theorem Similar.symm {V : Str → Prop} {s1 s2 : System} (h : Similar V s1 s2) :
    Similar V s2 s1 := by
  obtain ⟨T, heq, hT⟩ := h.engine
  refine ⟨h.sessions.symm, s1.engine.transactions, by rw [heq]; rfl, ?_⟩
  intro k hk
  rw [heq]
  exact (hT k hk).symm

/-! ## §3. Inside a transaction. -/

/-- The text does not end the transaction. -/
def StaysOpen (sql : Str) : Prop :=
  parse sql ≠ .ok .commitTransaction ∧ parse sql ≠ .ok .rollbackTransaction

/-- The text is not a `USE`. -/
def NoUse (sql : Str) : Prop := ∀ name, parse sql ≠ .ok (.useDatabase name)

/-- **A statement of a transaction on a state of its own.**  What a transaction
refuses is refused; everything else is executed. -/
def transactionStep (env : Env) (s : Store) (session : SessionContext) (sql : Str) :
    Store × SessionContext × Result QueryResult :=
  match parse sql with
  | .error err => (s, session, .error err)
  | .fault => (s, session, .fault)
  | .ok statement =>
      if statement = .beginTransaction then
        (s, session, .makeError .validationError (str "transaction already active for session"))
      else if statement = .checkIndex ∨ statement = .rebuildIndex then
        (s, session, .makeError .validationError
          (str "service index commands are not allowed inside active transaction"))
      else if isDdlStatement statement then
        (s, session, .makeError .validationError
          (str "DDL statements are not allowed inside an active transaction"))
      else runStatement env s session statement

/-- The statements of a transaction alone, one after the other. -/
def runAlone : Store → SessionContext → List Request →
    Store × SessionContext × List (Result QueryResult)
  | s, session, [] => (s, session, [])
  | s, session, c :: cs =>
      let r := transactionStep c.env s session c.sql
      let rs := runAlone r.1 r.2.1 cs
      (rs.1, rs.2.1, r.2.2 :: rs.2.2)

/-- A statement changes its session only by `USE` and `DROP DATABASE`, and the
client's id never. -/
theorem execute_session (env : Env) (s : Store) (session : SessionContext)
    (statement : Statement) (detail : Str) :
    (execute env s session statement detail).2.1.clientId = session.clientId ∧
      ((∀ name, statement ≠ .useDatabase name) → (∀ name, statement ≠ .dropDatabase name) →
        (execute env s session statement detail).2.1 = session) := by
  cases statement with
  | useDatabase name =>
      refine ⟨?_, fun h => absurd rfl (h name)⟩
      simp only [execute, executeUse]
      split <;> rfl
  | dropDatabase name =>
      refine ⟨?_, fun _ h => absurd rfl (h name)⟩
      simp only [execute, executeDropDatabase]
      split
      · split <;> rfl
      · rfl
  | _ => exact ⟨rfl, fun _ _ => rfl⟩

theorem runStatement_session (env : Env) (s : Store) (session : SessionContext)
    (statement : Statement) :
    (runStatement env s session statement).2.1.clientId = session.clientId ∧
      ((∀ name, statement ≠ .useDatabase name) → (∀ name, statement ≠ .dropDatabase name) →
        (runStatement env s session statement).2.1 = session) := by
  unfold runStatement
  split
  · exact ⟨rfl, fun _ _ => rfl⟩
  · exact ⟨rfl, fun _ _ => rfl⟩
  · rename_i plan hplan
    rw [buildPlan_statement hplan]
    exact execute_session env s session statement plan.detail

theorem transactionStep_session (env : Env) (s : Store) (session : SessionContext) (sql : Str) :
    (transactionStep env s session sql).2.1.clientId = session.clientId ∧
      (NoUse sql → (transactionStep env s session sql).2.1 = session) := by
  unfold transactionStep
  split
  · exact ⟨rfl, fun _ => rfl⟩
  · exact ⟨rfl, fun _ => rfl⟩
  · rename_i statement hparse
    split
    · exact ⟨rfl, fun _ => rfl⟩
    · split
      · exact ⟨rfl, fun _ => rfl⟩
      · split
        · exact ⟨rfl, fun _ => rfl⟩
        · rename_i hddl
          obtain ⟨hclient, hsame⟩ := runStatement_session env s session statement
          refine ⟨hclient, fun hno => hsame ?_ ?_⟩
          · rintro name rfl
            exact hno name hparse
          · rintro name rfl
            exact hddl rfl

/-- **A request inside its client's transaction** is a statement on the working
state, and nothing else happens. -/
theorem step_inTransaction {sys : System} {c : Request} (hc : c.client ≠ [])
    {tx : TransactionContext} (htx : sys.engine.transactions.find? c.client = some tx)
    (hopen : StaysOpen c.sql) :
    ∃ tx', tx'.store = (transactionStep c.env tx.store (sys.session c.client) c.sql).1 ∧
      (sys.step c).1 = ⟨sys.engine.withTransactions
          (sys.engine.transactions.modify c.client fun _ => tx'),
        Function.update sys.sessions c.client
          (transactionStep c.env tx.store (sys.session c.client) c.sql).2.1.currentDatabase⟩ ∧
      (sys.step c).2 = (transactionStep c.env tx.store (sys.session c.client) c.sql).2.2 := by
  have hself : sys.engine.withTransactions
      (sys.engine.transactions.modify c.client fun _ => tx) = sys.engine := by
    rw [Dict.modify_eq_self fun b hb => by simpa using htx.symm.trans hb]
    rfl
  have hkey : transactionKey (sys.session c.client) = c.client := transactionKey_session hc
  simp only [System.step, executeSql, transactionStep]
  cases hparse : parse c.sql with
  | error err =>
      exact ⟨tx, rfl, by simp [executeSqlImpl, hparse, hself], by simp [executeSqlImpl, hparse]⟩
  | fault =>
      exact ⟨tx, rfl, by simp [executeSqlImpl, hparse, hself], by simp [executeSqlImpl, hparse]⟩
  | ok statement =>
      simp only
      by_cases hb : statement = .beginTransaction
      · subst hb
        have hcont : sys.engine.transactions.contains c.client = true := by
          simp [Dict.contains, htx]
        refine ⟨tx, by simp, ?_, ?_⟩
        · simp [executeSqlImpl, hparse, hkey, executeBegin, hcont, hself]
        · simp [executeSqlImpl, hparse, hkey, executeBegin, hcont]
      · rw [executeSqlImpl_statement hparse hb (fun h => hopen.1 (h ▸ hparse))
          (fun h => hopen.2 (h ▸ hparse)), hkey, htx, if_neg hb]
        simp only [executeInTransaction]
        by_cases hcheck : statement = .checkIndex ∨ statement = .rebuildIndex
        · simp only [if_pos hcheck]
          exact ⟨tx, rfl, by rw [hself], trivial⟩
        · by_cases hddl : isDdlStatement statement = true
          · simp only [if_neg hcheck, if_pos hddl]
            exact ⟨tx, rfl, by rw [hself], trivial⟩
          · simp only [if_neg hcheck, if_neg hddl]
            -- the working state is the one the statement leaves
            refine ⟨tx.after (runStatement c.env tx.store (sys.session c.client) statement).1
              statement c.sql true
              (runStatement c.env tx.store (sys.session c.client) statement).2.2, rfl, ?_, trivial⟩
            have hmod : sys.engine.transactions.modify c.client (fun tx' => tx'.after
                (runStatement c.env tx.store (sys.session c.client) statement).1 statement c.sql
                true (runStatement c.env tx.store (sys.session c.client) statement).2.2)
              = sys.engine.transactions.modify c.client fun _ => tx.after
                (runStatement c.env tx.store (sys.session c.client) statement).1 statement c.sql
                true (runStatement c.env tx.store (sys.session c.client) statement).2.2 :=
              Dict.modify_congr fun b hb => by
                obtain rfl : tx = b := by simpa using htx.symm.trans hb
                rfl
            rw [hmod]
            rfl

/-- The request is one of the client's and does not end its transaction. -/
def KeepsOpen (A : Str) (cs : List Request) : Prop :=
  ∀ c ∈ cs, c.client = A → StaysOpen c.sql

/-- The requests of one client. -/
def ownRequests (A : Str) (cs : List Request) : List Request :=
  cs.filter fun c => decide (c.client = A)

/-- The requests of the others. -/
def otherRequests (A : Str) (cs : List Request) : List Request :=
  cs.filter fun c => decide (c.client ≠ A)

/-- The results of one client. -/
def ownResults (A : Str) (rs : List (Str × Result QueryResult)) : List (Result QueryResult) :=
  (rs.filter fun r => decide (r.1 = A)).map Prod.snd

/-- The results of the others. -/
def otherResults (A : Str) (rs : List (Str × Result QueryResult)) :
    List (Str × Result QueryResult) :=
  rs.filter fun r => decide (r.1 ≠ A)

/-- The client's session and working state are those of its statements alone. -/
structure RunsAlone (A : Str) (sys : System) (s : Store) (session : SessionContext) : Prop where
  session : session = sys.session A
  storeOk : StoreOk s
  engineOk : EngineOk sys.engine
  working : ∃ tx, sys.engine.transactions.find? A = some tx ∧ SameStore s tx.store

theorem runStatement_congr (env : Env) {s s' : Store} (h : StoreOk s) (h' : StoreOk s')
    (hs : SameStore s s') (session : SessionContext) (statement : Statement) :
    SameStore (runStatement env s session statement).1
        (runStatement env s' session statement).1 ∧
      (runStatement env s' session statement).2 = (runStatement env s session statement).2 := by
  unfold runStatement
  cases statement with
  | unknown raw => exact ⟨hs, rfl⟩
  | select stmt =>
      obtain ⟨p, hp⟩ : ∃ p, buildPlan s.runtime (.select stmt) = .ok p := buildPlan_ok (by simp)
      obtain ⟨p', hp'⟩ : ∃ p, buildPlan s'.runtime (.select stmt) = .ok p := buildPlan_ok (by simp)
      simp only [hp, hp', buildPlan_statement hp, buildPlan_statement hp']
      -- the text of the plan plays no part
      exact execute_congr env h h' hs session (.select stmt) p.detail
  | _ => exact execute_congr env h h' hs session _ _

theorem transactionStep_congr (env : Env) {s s' : Store} (h : StoreOk s) (h' : StoreOk s')
    (hs : SameStore s s') (session : SessionContext) (sql : Str) :
    StoreOk (transactionStep env s session sql).1 ∧
      SameStore (transactionStep env s session sql).1 (transactionStep env s' session sql).1 ∧
      (transactionStep env s' session sql).2 = (transactionStep env s session sql).2 := by
  unfold transactionStep
  cases hparse : parse sql with
  | error err => exact ⟨h, hs, rfl⟩
  | fault => exact ⟨h, hs, rfl⟩
  | ok statement =>
      simp only
      split
      · exact ⟨h, hs, rfl⟩
      · split
        · exact ⟨h, hs, rfl⟩
        · split
          · exact ⟨h, hs, rfl⟩
          · exact ⟨runStatement_ok env h session (parse_validated hparse),
              runStatement_congr env h h' hs session statement⟩

/-- `BEGIN` gives the client a copy of the committed state. -/
theorem runsAlone_begin {sys : System} (h : EngineOk sys.engine) {c : Request}
    (hc : c.client ≠ []) (hbegin : parse c.sql = .ok .beginTransaction)
    (hidle : sys.engine.transactions.find? c.client = none) :
    RunsAlone c.client (sys.step c).1 sys.engine.store (sys.session c.client) ∧
      Similar (fun k => k ≠ c.client) sys (sys.step c).1 := by
  obtain ⟨state, hclone, -, hview⟩ := cloneRuntimeState_ok h.committed.state
  have hcont : sys.engine.transactions.contains c.client = false := by
    simp [Dict.contains, hidle]
  have hkey : transactionKey (sys.session c.client) = c.client := transactionKey_session hc
  have hstep : (sys.step c).1 = ⟨sys.engine.withTransactions (sys.engine.transactions.emplace
      c.client ⟨state, sys.engine.versionStore, []⟩), sys.sessions⟩ := by
    have hrun : executeSqlImpl c.env c.io sys.engine (sys.session c.client) c.sql true
        = (sys.engine.withTransactions (sys.engine.transactions.emplace c.client
            ⟨state, sys.engine.versionStore, []⟩), sys.session c.client,
          .ok (.ofMessage (str "transaction started"))) := by
      simp only [executeSqlImpl, hbegin, hkey, executeBegin, hcont]
      rw [show cloneRuntimeState sys.engine.runtimeState = .ok state from hclone]
      rfl
    have hsess : Function.update sys.sessions c.client
        (sys.session c.client).currentDatabase = sys.sessions := Function.update_eq_self ..
    simp only [System.step, executeSql, hrun, hsess]
  have hok : EngineOk (sys.step c).1.engine :=
    executeSqlImpl_ok h (sys.session c.client) c.sql true
  refine ⟨⟨?_, h.committed, hok, ?_⟩, ⟨?_, ?_⟩⟩
  · rw [hstep]
    rfl
  · refine ⟨⟨state, sys.engine.versionStore, []⟩, ?_, hview, rfl⟩
    rw [hstep]
    exact (Dict.find?_emplace hidle).trans (if_pos rfl)
  · rw [hstep]
  · refine ⟨_, by rw [hstep], ?_⟩
    intro k hk
    rw [Dict.find?_emplace hidle, if_neg hk]

theorem RunsAlone.own {A : Str} {sys : System} {s : Store} {session : SessionContext}
    (h : RunsAlone A sys s session) {c : Request} (hA : c.client = A) (hne : A ≠ [])
    (hopen : StaysOpen c.sql) :
    RunsAlone A (sys.step c).1 (transactionStep c.env s session c.sql).1
        (transactionStep c.env s session c.sql).2.1 ∧
      (sys.step c).2 = (transactionStep c.env s session c.sql).2.2 := by
  subst hA
  obtain ⟨tx, htx, hsame⟩ := h.working
  obtain ⟨tx', htx', hstep, hres⟩ := step_inTransaction hne htx hopen
  obtain ⟨hok, hsame', hout⟩ := transactionStep_congr c.env h.storeOk
    (h.engineOk.working _ _ htx) hsame session c.sql
  rw [← h.session] at htx' hstep hres
  rw [hout] at hstep hres
  refine ⟨⟨?_, hok, executeSqlImpl_ok h.engineOk (sys.session c.client) c.sql true, ?_⟩, hres⟩
  · -- the session is the one the statement leaves
    have hid := (transactionStep_session c.env s session c.sql).1
    rw [hstep]
    simp only [System.session, Function.update_self]
    rw [h.session] at hid ⊢
    generalize (transactionStep c.env s (sys.session c.client) c.sql).2.1 = t at hid ⊢
    obtain ⟨id, db⟩ := t
    exact congrArg (fun x => SessionContext.mk x db) hid
  · refine ⟨tx', ?_, by rw [htx']; exact hsame'⟩
    rw [hstep]
    show (sys.engine.transactions.modify c.client fun _ => tx').find? c.client = some tx'
    rw [Dict.find?_modify, if_pos rfl, htx]
    rfl

theorem RunsAlone.other {A : Str} {sys : System} {s : Store} {session : SessionContext}
    (h : RunsAlone A sys s session) {c : Request} (hA : c.client ≠ A) (hne : c.client ≠ []) :
    RunsAlone A (sys.step c).1 s session := by
  obtain ⟨tx, htx, hsame⟩ := h.working
  refine ⟨?_, h.storeOk, executeSqlImpl_ok h.engineOk (sys.session c.client) c.sql true,
    tx, ?_, hsame⟩
  · rw [h.session]
    simp [System.session, System.step, Function.update_of_ne (Ne.symm hA)]
  · rw [← htx]
    exact executeSqlImpl_frame c.env c.io sys.engine (sys.session c.client) c.sql true
      (by rw [transactionKey_session hne]; exact Ne.symm hA)

/-- **Inside its transaction a client sees what its statements alone would
show it.** -/
theorem RunsAlone.run {A : Str} {sys : System} {s : Store} {session : SessionContext}
    (h : RunsAlone A sys s session) {cs : List Request} (hne : ∀ c ∈ cs, c.client ≠ [])
    (hopen : KeepsOpen A cs) :
    RunsAlone A (sys.run cs).1 (runAlone s session (ownRequests A cs)).1
        (runAlone s session (ownRequests A cs)).2.1 ∧
      ownResults A (sys.run cs).2 = (runAlone s session (ownRequests A cs)).2.2 := by
  induction cs generalizing sys s session with
  | nil => exact ⟨h, rfl⟩
  | cons c cs ih =>
      have hne' : ∀ x ∈ cs, x.client ≠ [] := fun x hx => hne x (List.mem_cons_of_mem _ hx)
      have hopen' : KeepsOpen A cs := fun x hx => hopen x (List.mem_cons_of_mem _ hx)
      have hc := hne c (List.mem_cons_self ..)
      by_cases hA : c.client = A
      · obtain ⟨hstep, hres⟩ := h.own hA (hA ▸ hc) (hopen c (List.mem_cons_self ..) hA)
        obtain ⟨hrun, hresults⟩ := ih hstep hne' hopen'
        have hown : ownRequests A (c :: cs) = c :: ownRequests A cs := by
          simp [ownRequests, hA]
        rw [hown]
        refine ⟨hrun, ?_⟩
        show ownResults A ((c.client, (sys.step c).2) :: ((sys.step c).1.run cs).2)
          = (transactionStep c.env s session c.sql).2.2 :: _
        rw [← hresults, ← hres]
        simp [ownResults, hA]
      · obtain ⟨hrun, hresults⟩ := ih (h.other hA hc) hne' hopen'
        have hown : ownRequests A (c :: cs) = ownRequests A cs := by
          simp [ownRequests, hA]
        rw [hown]
        refine ⟨hrun, ?_⟩
        rw [← hresults]
        simp [ownResults, System.run, hA]

/-! ## §4. Around a transaction. -/

/-- A request inside its client's transaction is out of sight of the others. -/
theorem similar_own {sys : System} {c : Request} (hc : c.client ≠ []) {tx : TransactionContext}
    (htx : sys.engine.transactions.find? c.client = some tx) (hopen : StaysOpen c.sql)
    (huse : NoUse c.sql) : Similar (fun k => k ≠ c.client) sys (sys.step c).1 := by
  obtain ⟨tx', -, hstep, -⟩ := step_inTransaction hc htx hopen
  rw [(transactionStep_session c.env tx.store (sys.session c.client) c.sql).2 huse] at hstep
  refine ⟨?_, _, by rw [hstep], ?_⟩
  · rw [hstep]
    simp [System.session]
  · intro k hk
    rw [Dict.find?_modify, if_neg hk]

/-- **A transaction left out.**  One system has it, the other has not; the
other clients cannot tell. -/
theorem similar_run_without {A : Str} {sys sys' : System} (hs : Similar (fun k => k ≠ A) sys sys')
    {tx : TransactionContext} (htx : sys.engine.transactions.find? A = some tx)
    {cs : List Request} (hne : ∀ c ∈ cs, c.client ≠ []) (hopen : KeepsOpen A cs)
    (huse : ∀ c ∈ cs, c.client = A → NoUse c.sql) :
    Similar (fun k => k ≠ A) (sys.run cs).1 (sys'.run (otherRequests A cs)).1 ∧
      (∃ tx', (sys.run cs).1.engine.transactions.find? A = some tx') ∧
      (sys'.run (otherRequests A cs)).1.engine.transactions.find? A
        = sys'.engine.transactions.find? A ∧
      (sys'.run (otherRequests A cs)).2 = otherResults A (sys.run cs).2 := by
  induction cs generalizing sys sys' tx with
  | nil => exact ⟨hs, ⟨tx, htx⟩, rfl, rfl⟩
  | cons c cs ih =>
      have hne' : ∀ x ∈ cs, x.client ≠ [] := fun x hx => hne x (List.mem_cons_of_mem _ hx)
      have hopen' : KeepsOpen A cs := fun x hx => hopen x (List.mem_cons_of_mem _ hx)
      have huse' : ∀ x ∈ cs, x.client = A → NoUse x.sql :=
        fun x hx => huse x (List.mem_cons_of_mem _ hx)
      have hc := hne c (List.mem_cons_self ..)
      have hmem : c ∈ c :: cs := List.mem_cons_self ..
      by_cases hA : c.client = A
      · subst hA
        have hsim := similar_own hc htx (hopen c hmem rfl) (huse c hmem rfl)
        obtain ⟨tx', -, hstep, -⟩ := step_inTransaction hc htx (hopen c hmem rfl)
        have htx' : (sys.step c).1.engine.transactions.find? c.client = some tx' := by
          rw [hstep]
          show (sys.engine.transactions.modify c.client fun _ => tx').find? c.client = some tx'
          rw [Dict.find?_modify, if_pos rfl, htx]
          rfl
        obtain ⟨h1, h2, h3, h4⟩ := ih (hsim.symm.trans hs) htx' hne' hopen' huse'
        have hout : otherRequests c.client (c :: cs) = otherRequests c.client cs := by
          simp [otherRequests]
        rw [hout]
        refine ⟨h1, h2, h3, h4.trans ?_⟩
        simp [otherResults, System.run]
      · obtain ⟨hsim, hres⟩ := hs.step hA hc
        have htx' : (sys.step c).1.engine.transactions.find? A = some tx := by
          rw [← htx]
          exact executeSqlImpl_frame c.env c.io sys.engine (sys.session c.client) c.sql true
            (by rw [transactionKey_session hc]; exact Ne.symm hA)
        have hframe : (sys'.step c).1.engine.transactions.find? A
            = sys'.engine.transactions.find? A :=
          executeSqlImpl_frame c.env c.io sys'.engine (sys'.session c.client) c.sql true
            (by rw [transactionKey_session hc]; exact Ne.symm hA)
        obtain ⟨h1, h2, h3, h4⟩ := ih hsim htx' hne' hopen' huse'
        have hout : otherRequests A (c :: cs) = c :: otherRequests A cs := by
          simp [otherRequests, hA]
        rw [hout]
        refine ⟨h1, h2, h3.trans hframe, ?_⟩
        simp only [System.run, h4, hres]
        simp [otherResults, hA]

/-- How a transaction that is not committed goes on: it is open at the end of
the run, or rolled back at some point, and `rest` follows. -/
inductive Abandoned (A : Str) : List Request → List Request → Prop where
  | stillOpen : Abandoned A [] []
  | rolledBack {c : Request} {rest : List Request} (hA : c.client = A)
      (h : parse c.sql = .ok .rollbackTransaction) (hne : ∀ x ∈ rest, x.client ≠ []) :
      Abandoned A (c :: rest) rest

/-- `ROLLBACK` removes what the others do not see. -/
theorem similar_rollback {A : Str} {sys sys' : System} {c : Request} (hA : c.client = A)
    (hc : A ≠ []) (hroll : parse c.sql = .ok .rollbackTransaction)
    (hs : Similar (fun k => k ≠ A) sys sys') {tx : TransactionContext}
    (htx : sys.engine.transactions.find? A = some tx)
    (hnone : sys'.engine.transactions.find? A = none) :
    Similar (fun _ => True) (sys.step c).1 sys' := by
  subst hA
  have hkey : transactionKey (sys.session c.client) = c.client := transactionKey_session hc
  have hcont : sys.engine.transactions.contains c.client = true := by simp [Dict.contains, htx]
  have hsess : Function.update sys.sessions c.client (sys.session c.client).currentDatabase
      = sys.sessions := Function.update_eq_self ..
  have hstep : (sys.step c).1 = ⟨sys.engine.withTransactions
      (sys.engine.transactions.erase c.client), sys.sessions⟩ := by
    have hrun : (executeSqlImpl c.env c.io sys.engine (sys.session c.client) c.sql true).1
        = sys.engine.withTransactions (sys.engine.transactions.erase c.client) ∧
        (executeSqlImpl c.env c.io sys.engine (sys.session c.client) c.sql true).2.1
          = sys.session c.client := by
      simp only [executeSqlImpl, hroll, hkey, executeRollback, hcont, if_true]
      exact ⟨rfl, trivial⟩
    simp only [System.step, executeSql, hrun.1, hrun.2, hsess]
  obtain ⟨T, heq, hT⟩ := hs.engine
  refine ⟨by rw [hstep]; exact hs.sessions, T, by rw [hstep, heq]; rfl, ?_⟩
  intro k _
  rw [hstep]
  show T.find? k = (sys.engine.transactions.erase c.client).find? k
  rw [Dict.find?_erase]
  by_cases hk : k = c.client
  · rw [if_pos hk, hk]
    rw [heq] at hnone
    exact hnone
  · rw [if_neg hk, hT k hk]

/-- **Isolation.**  A client whose session is idle begins a transaction, and
the requests `cs` of all clients follow, none of which ends it.  Left out with
all its statements, a transaction without `USE` that is abandoned changes
neither the committed state and its log nor any result of another client.  And
what the client is answered inside its transaction is what its statements
alone are answered, from the committed state and its session at the
`BEGIN`. -/
theorem transactions_isolated {sys : System} (h : Reachable sys.engine) {b : Request}
    (hb : b.client ≠ []) (hbegin : parse b.sql = .ok .beginTransaction)
    (hidle : sys.engine.transactions.find? b.client = none) {cs : List Request}
    (hne : ∀ c ∈ cs, c.client ≠ []) (hopen : KeepsOpen b.client cs) :
    ((∀ c ∈ cs, c.client = b.client → NoUse c.sql) → ∀ tail rest, Abandoned b.client tail rest →
      (sys.run (otherRequests b.client cs ++ rest)).1.engine.store
          = (sys.run (b :: cs ++ tail)).1.engine.store ∧
        otherResults b.client (sys.run (otherRequests b.client cs ++ rest)).2
          = otherResults b.client (sys.run (b :: cs ++ tail)).2) ∧
    ownResults b.client ((sys.step b).1.run cs).2
      = (runAlone sys.engine.store (sys.session b.client) (ownRequests b.client cs)).2.2 := by
  obtain ⟨halone, hsim⟩ := runsAlone_begin (reachable_ok h) hb hbegin hidle
  refine ⟨?_, (halone.run hne hopen).2⟩
  intro huse tail rest htail
  obtain ⟨tx, htx, -⟩ := halone.working
  obtain ⟨h1, ⟨tx', htx'⟩, h3, h4⟩ := similar_run_without hsim.symm htx hne hopen huse
  rw [hidle] at h3
  have hfilter : ∀ l, otherResults b.client (otherResults b.client l) = otherResults b.client l :=
    fun l => by simp [otherResults]
  have happ : ∀ l l', otherResults b.client (l ++ l')
      = otherResults b.client l ++ otherResults b.client l' := fun l l' => List.filter_append ..
  have hdrop : ∀ c r l, c = b.client →
      otherResults b.client ((c, r) :: l) = otherResults b.client l := by
    rintro c r l rfl
    simp [otherResults]
  cases htail with
  | stillOpen =>
      simp only [List.append_nil, System.run, hdrop _ _ _ rfl]
      exact ⟨h1.store, by rw [h4, hfilter]⟩
  | @rolledBack c rest hA hroll hne' =>
      have hsim' := similar_rollback hA hb hroll h1 htx' h3
      obtain ⟨h5, h6⟩ := hsim'.run (fun _ _ => trivial) hne'
      have hfull : sys.run (b :: cs ++ c :: rest)
          = (((((sys.step b).1.run cs).1.step c).1.run rest).1,
            (b.client, (sys.step b).2) :: (((sys.step b).1.run cs).2 ++
              (c.client, (((sys.step b).1.run cs).1.step c).2) ::
                ((((sys.step b).1.run cs).1.step c).1.run rest).2)) := by
        simp only [List.cons_append, System.run, run_append]
      rw [hfull, run_append]
      refine ⟨h5.store, ?_⟩
      show otherResults b.client (_ ++ _) = otherResults b.client (_ :: (_ ++ _))
      rw [happ, h4, hfilter, h6, hdrop _ _ _ rfl, happ, hdrop _ _ _ hA]

/-- A request of the samples. -/
def sampleRequest (client sql : String) : Request := ⟨str client, sampleEnv, Io.good, str sql⟩

/-- The sample run, with sessions that use its database. -/
def sampleSystem : System := ⟨sampleRun.1, fun _ => str "d"⟩

theorem reachable_sampleSystem : Reachable sampleSystem.engine := by
  simp only [sampleSystem]
  exact reachable_sampleRun

/-- The first client begins a transaction. -/
def sampleBegin : Request := sampleRequest "a" "BEGIN;"

/-- Two clients, the first of which is in a transaction. -/
def sampleRequests : List Request :=
  [sampleRequest "a" "DELETE FROM t WHERE k == 1;", sampleRequest "b" "SELECT k FROM t;",
    sampleRequest "a" "SELECT k FROM t;"]

set_option maxRecDepth 4000 in
/-- A text that has been read as `USE`. -/
def isUse : Result Statement → Bool
  | .ok (.useDatabase _) => true
  | _ => false

theorem transactions_isolated_sampleRequests :
    otherResults sampleBegin.client
        (sampleSystem.run (otherRequests sampleBegin.client sampleRequests ++ [])).2
      = otherResults sampleBegin.client
        (sampleSystem.run (sampleBegin :: sampleRequests ++ [])).2 ∧
    ownResults sampleBegin.client ((sampleSystem.step sampleBegin).1.run sampleRequests).2
      = (runAlone sampleSystem.engine.store (sampleSystem.session sampleBegin.client)
        (ownRequests sampleBegin.client sampleRequests)).2.2 ∧
    (ownResults sampleBegin.client
      ((sampleSystem.step sampleBegin).1.run sampleRequests).2).all Result.isOk = true := by
  have hopen : KeepsOpen sampleBegin.client sampleRequests := by
    have hparse : ∀ c ∈ sampleRequests, parse c.sql ≠ .ok .commitTransaction ∧
        parse c.sql ≠ .ok .rollbackTransaction := by decide +kernel
    exact fun c hc _ => hparse c hc
  have huse : ∀ c ∈ sampleRequests, c.client = sampleBegin.client → NoUse c.sql := by
    have hparse : ∀ c ∈ sampleRequests, isUse (parse c.sql) = false := by decide +kernel
    intro c hc _ name heq
    have hfalse := hparse c hc
    rw [heq] at hfalse
    cases hfalse
  have h := transactions_isolated (b := sampleBegin) reachable_sampleSystem (by decide +kernel)
    (by decide +kernel) (by decide +kernel) (by decide +kernel) hopen
  exact ⟨(h.1 huse [] [] .stillOpen).2, h.2, by decide +kernel⟩

/-! ## §5. `COMMIT`. -/

/-- A `COMMIT` publishes the working state, also where it fails afterwards. -/
theorem store_of_commit {sys : System} {c : Request} (hc : c.client ≠ [])
    (hcommit : parse c.sql = .ok .commitTransaction) {tx : TransactionContext}
    (htx : sys.engine.transactions.find? c.client = some tx) :
    (sys.step c).1.engine.store = tx.store := by
  have hkey : transactionKey (sys.session c.client) = c.client := transactionKey_session hc
  simp only [System.step, executeSql, executeSqlImpl, hcommit, hkey, executeCommit, htx]
  obtain ⟨d, heq | heq⟩ := commitTransaction_memory sys.engine c.io true c.client tx
  · rw [heq]
    rfl
  · rw [heq]
    rfl

/-- **A `COMMIT` publishes the client's own copy.**  Whatever the other clients
have committed since its `BEGIN`, the committed state and its log are what the
client's statements alone make of the committed state at its `BEGIN`. -/
theorem commit_publishes_snapshot {sys : System} (h : Reachable sys.engine) {b c : Request}
    (hb : b.client ≠ []) (hbegin : parse b.sql = .ok .beginTransaction)
    (hidle : sys.engine.transactions.find? b.client = none) {cs : List Request}
    (hne : ∀ x ∈ cs, x.client ≠ []) (hopen : KeepsOpen b.client cs) (hc : c.client = b.client)
    (hcommit : parse c.sql = .ok .commitTransaction) :
    SameStore (runAlone sys.engine.store (sys.session b.client) (ownRequests b.client cs)).1
      (sys.run (b :: cs ++ [c])).1.engine.store := by
  obtain ⟨halone, -⟩ := runsAlone_begin (reachable_ok h) hb hbegin hidle
  obtain ⟨hrun, -⟩ := halone.run hne hopen
  obtain ⟨tx, htx, hsame⟩ := hrun.working
  have hlast : (sys.run (b :: cs ++ [c])).1 = (((sys.step b).1.run cs).1.step c).1 := by
    simp only [List.cons_append, System.run, run_append]
  rw [hlast, store_of_commit (hc ▸ hb) hcommit (hc ▸ htx)]
  exact hsame

/-- The second client adds a row while the first is in its transaction. -/
def lostInsert : Request := sampleRequest "b" "INSERT INTO t (k, v) VALUES (3, \"z\");"

set_option maxRecDepth 4000 in
theorem commit_publishes_snapshot_lostInsert :
    SameStore (runAlone sampleSystem.engine.store (sampleSystem.session sampleBegin.client)
        (ownRequests sampleBegin.client [lostInsert])).1
      (sampleSystem.run (sampleBegin :: [lostInsert] ++
        [sampleRequest "a" "COMMIT;"])).1.engine.store :=
  commit_publishes_snapshot (b := sampleBegin)
    reachable_sampleSystem (by decide +kernel) (by decide +kernel) (by decide +kernel)
    (by decide +kernel)
    (by
      have hclient : ∀ x ∈ [lostInsert], x.client ≠ sampleBegin.client := by decide +kernel
      exact fun x hx hxa => absurd hxa (hclient x hx))
    (by decide +kernel) (by decide +kernel)

set_option maxRecDepth 4000 in
/-- The row a second client adds during an empty transaction of the first is
lost at the `COMMIT`. -/
theorem commit_loses_update :
    ¬ ∀ (sys : System) (b c d : Request), Reachable sys.engine → b.client ≠ [] → c.client ≠ [] →
      b.client ≠ c.client → parse b.sql = .ok .beginTransaction → d.client = b.client →
      parse d.sql = .ok .commitTransaction →
      (∀ r ∈ (sys.run [b, c, d]).2, r.2.isOk = true) →
      ∀ database table rows, storeRows (sys.run [b, c]).1.engine.store database table = some rows →
        ∃ rows', storeRows (sys.run [b, c, d]).1.engine.store database table = some rows' ∧
          ∀ r ∈ rows, r ∈ rows' := by
  intro hclaim
  have hbefore : storeRows (sampleSystem.run [sampleBegin,
      lostInsert]).1.engine.store (str "d") (str "t")
      = some [⟨some 0, [.int 1, .string (str "x")]⟩, ⟨some 1, [.int 2, .string (str "y")]⟩,
        ⟨some 2, [.int 3, .string (str "z")]⟩] := by decide +kernel
  have hafter : storeRows (sampleSystem.run [sampleBegin, lostInsert,
      sampleRequest "a" "COMMIT;"]).1.engine.store (str "d") (str "t")
      = some [⟨some 0, [.int 1, .string (str "x")]⟩, ⟨some 1, [.int 2, .string (str "y")]⟩] := by
    decide +kernel
  obtain ⟨rows', hrows', hkept⟩ := hclaim sampleSystem sampleBegin lostInsert
    (sampleRequest "a" "COMMIT;") reachable_sampleSystem (by decide +kernel) (by decide +kernel)
    (by decide +kernel) (by decide +kernel) rfl (by decide +kernel) (by decide +kernel)
    (str "d") (str "t") _ hbefore
  rw [hafter] at hrows'
  cases hrows'
  have hlost := hkept ⟨some 2, [.int 3, .string (str "z")]⟩ (by simp)
  revert hlost
  decide +kernel

end CustomDbms.Core
