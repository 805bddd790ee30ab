/-
  CustomDbms.Server.WriteContainment
  ──────────────────────────────────
  **WRITES STAY WITHIN THE CALLER'S DATABASES, COMMIT APART.**

  The server authorizes a statement on one database, by name; the executor
  resolves the name on its own, and to the same database.  So a user changes
  nothing in a database on which he holds no permission to change anything,
  with one exception: a COMMIT is authorized on the current database of the
  session and publishes the working copies of all of them.

    • `handleSql_cases` — what a request can do to the engine.
    • `BegunIn.working` — the copy of a database in a transaction is the one of
      its BEGIN, as long as only users without permissions work in it.
    • `writes_stay_within` — the exact condition, along every run.
    • `commit_overwrites_other_database` — the exception: the update of another
      user, in another database, is lost.
-/
import CustomDbms.Core.DatabaseContents
import CustomDbms.Server.Escalation
import CustomDbms.Server.SqlRequests

namespace CustomDbms.Server

open CustomDbms.Common CustomDbms.Lib CustomDbms.Parser CustomDbms.Catalog CustomDbms.Network
open CustomDbms.Execution CustomDbms.Core CustomDbms.Runtime

variable {ν : Type} {w : World ν}

/-! ## §1. Permissions to change a database. -/

/-- The permissions to change something in a database. -/
def changePermissions : List Permission := [.write, .createTable, .dropTable, .dropDatabase]

/-- The user holds none of them on the database. -/
def HoldsNone (ac : AccessController) (userId databaseName : Str) : Prop :=
  ∀ p ∈ changePermissions, authorize ac userId databaseName p = false

/-- `Authorize` lets the user execute the statement. -/
def Permitted (ac : AccessController) (userId : Str) (session : SessionContext)
    (statement : Statement) : Prop :=
  ∀ p, requiredPermission statement = some p →
    authorize ac userId (resolveAuthorizationDatabaseName statement session) p = true

/-- **Authorization and execution resolve names alike**: what changes a
database needs one of the permissions, on this database. -/
theorem changedDatabase_authorized {session : SessionContext} {statement : Statement} {d : Str}
    (h : changedDatabase session statement = some d) :
    resolveAuthorizationDatabaseName statement session = d ∧
      ∃ p ∈ changePermissions, requiredPermission statement = some p := by
  cases statement with
  | createDatabase name => exact ⟨Option.some.inj h, .createTable, by decide, rfl⟩
  | dropDatabase name => exact ⟨Option.some.inj h, .dropDatabase, by decide, rfl⟩
  | createTable stmt => exact ⟨Option.some.inj h, .createTable, by decide, rfl⟩
  | dropTable name => exact ⟨Option.some.inj h, .dropTable, by decide, rfl⟩
  | insert stmt => exact ⟨Option.some.inj h, .write, by decide, rfl⟩
  | update stmt => exact ⟨Option.some.inj h, .write, by decide, rfl⟩
  | delete stmt => exact ⟨Option.some.inj h, .write, by decide, rfl⟩
  | revert stmt => exact ⟨Option.some.inj h, .write, by decide, rfl⟩
  | _ => cases h

theorem HoldsNone.changedDatabase {ac : AccessController} {userId d : Str}
    (h : HoldsNone ac userId d) {session : SessionContext} {statement : Statement}
    (hpermitted : Permitted ac userId session statement) :
    changedDatabase session statement ≠ some d := by
  intro hchanged
  obtain ⟨hname, p, hp, hrequired⟩ := changedDatabase_authorized hchanged
  have hgranted := hpermitted p hrequired
  rw [hname, h p hp] at hgranted
  cases hgranted

/-! ## §2. One request. -/

/-- A server with accounts and without storage nodes. -/
structure Standalone (s : System ν) : Prop where
  engine : EngineOk s.server.engine
  nodes : s.server.storageNodes = []
  accounts : s.controller.hasAccounts = true

/-- A request with its moment. -/
abbrev SqlRequest := RequestContext × RequestEnvelope

/-- The server as a machine that takes payloads that are no commands. -/
def sqlMachine (w : World ν) : Machine (System ν) SqlRequest (Option ResponseEnvelope) :=
  fun s a => handleSql w a.1 s a.2

/-- The user whose token a request carries. -/
def requestUser (w : World ν) (s : System ν) (a : SqlRequest) : Option Str :=
  validateTokenAndGetUser w.hmac s.controller a.1.now a.2.jwtToken

/-- The session of a request. -/
def requestSession (s : System ν) (a : SqlRequest) : SessionContext :=
  s.server.session a.2.clientId

/-- The committed state of the server. -/
def System.committed (s : System ν) : Store := s.server.engine.store

/-- The engine has executed the statement of the request. -/
structure Executed (w : World ν) (s : System ν) (a : SqlRequest) (statement : Statement)
    (userId : Str) : Prop where
  parsed : parse a.2.payload = .ok statement
  user : requestUser w s a = some userId
  permitted : Permitted s.controller userId (requestSession s a) statement

/-- The check of token and permission lets pass what is permitted. -/
theorem authorizeRequest_eq_none (w : World ν) {s : System ν} (h : Standalone s) (a : SqlRequest)
    (statement : Statement) :
    authorizeRequest w a.1 (s.server.withSession a.2.clientId) a.2 statement = none ↔
      ∃ userId, requestUser w s a = some userId ∧
        Permitted s.controller userId (requestSession s a) statement := by
  have haccounts : (s.server.withSession a.2.clientId).accessController.hasAccounts = true :=
    h.accounts
  unfold authorizeRequest
  rw [haccounts, session_withSession]
  rw [show validateTokenAndGetUser w.hmac (s.server.withSession a.2.clientId).accessController
    a.1.now a.2.jwtToken = requestUser w s a from rfl]
  simp only [Bool.not_true, Bool.false_eq_true, if_false]
  cases requestUser w s a with
  | none => simp
  | some userId =>
      unfold Permitted
      cases hp : requiredPermission statement with
      | none => simp
      | some p =>
          rw [show authorize (s.server.withSession a.2.clientId).accessController
            = authorize s.controller from rfl]
          by_cases hgranted : authorize s.controller userId
              (resolveAuthorizationDatabaseName statement (s.server.session a.2.clientId)) p = true
          · simp [hgranted, requestSession]
          · simp [hgranted, requestSession]

/-- **What a request can do**: nothing to the engine, or execute a permitted
statement. -/
theorem handleSql_cases {s : System ν} (h : Standalone s) (a : SqlRequest) :
    (sqlMachine w s a).1.controller = s.controller ∧
    (sqlMachine w s a).1.server.storageNodes = [] ∧
    (((∀ statement userId, ¬ Executed w s a statement userId) ∧
        (sqlMachine w s a).1.server.engine = s.server.engine) ∨
      ∃ statement userId, Executed w s a statement userId ∧
        (sqlMachine w s a).1.server.engine
          = (executeSql a.1.env a.1.files s.server.engine (requestSession s a) a.2.payload).1) := by
  obtain ⟨ctx, request⟩ := a
  unfold sqlMachine handleSql
  dsimp only
  cases hparse : parse request.payload with
  | error err =>
      refine ⟨rfl, h.nodes, .inl ⟨fun statement userId hex => ?_, rfl⟩⟩
      cases hparse.symm.trans hex.parsed
  | fault =>
      refine ⟨rfl, h.nodes, .inl ⟨fun statement userId hex => ?_, rfl⟩⟩
      cases hparse.symm.trans hex.parsed
  | ok statement =>
      have hiff := authorizeRequest_eq_none w h (ctx, request) statement
      dsimp only at hiff ⊢
      cases hauth : authorizeRequest w ctx (s.server.withSession request.clientId) request
          statement with
      | some response =>
          refine ⟨rfl, h.nodes, .inl ⟨fun statement' userId hex => ?_, rfl⟩⟩
          obtain rfl : statement = statement' := Result.ok.inj (hparse.symm.trans hex.parsed)
          rw [hiff.mpr ⟨userId, hex.user, hex.permitted⟩] at hauth
          cases hauth
      | none =>
          obtain ⟨userId, huser, hpermitted⟩ := hiff.mp hauth
          have hleaf : (s.server.withSession request.clientId).storageNodes = [] := h.nodes
          dsimp only
          rw [executeStatement, if_neg (by rw [hleaf]; exact fun hne => hne rfl)]
          unfold EntrypointServer.executeAs
          dsimp only
          rw [session_withSession]
          exact ⟨rfl, h.nodes, .inr ⟨statement, userId, ⟨hparse, huser, hpermitted⟩, rfl⟩⟩

theorem standalone_step {s : System ν} (h : Standalone s) (a : SqlRequest) :
    Standalone (sqlMachine w s a).1 := by
  obtain ⟨hcontroller, hnodes, hengine⟩ := handleSql_cases (w := w) h a
  refine ⟨?_, hnodes, hcontroller ▸ h.accounts⟩
  rcases hengine with ⟨-, heq⟩ | ⟨statement, userId, -, heq⟩
  · rw [heq]
    exact h.engine
  · rw [heq]
    exact executeSqlImpl_ok h.engine _ _ true

/-- The request is a COMMIT of this transaction, and the server executes it. -/
structure CommitsCopy (w : World ν) (s : System ν) (a : SqlRequest) (tx : TransactionContext) :
    Prop where
  accepted : ∃ userId, Executed w s a .commitTransaction userId
  found : s.server.engine.transactionOf (requestSession s a) = some tx

/-- **One request of a user without permissions**: the database stays, unless
a COMMIT publishes another copy of it. -/
theorem step_contents {s : System ν} (h : Standalone s) {a : SqlRequest} {userId d : Str}
    (huser : requestUser w s a = some userId) (hnone : HoldsNone s.controller userId d) :
    databaseContents (sqlMachine w s a).1.committed d = databaseContents s.committed d ↔
      ∀ tx, CommitsCopy w s a tx → databaseContents tx.store d = databaseContents s.committed d := by
  unfold System.committed
  obtain ⟨-, -, ⟨hno, heq⟩ | ⟨statement, userId', hex, heq⟩⟩ := handleSql_cases (w := w) h a
  · rw [heq]
    refine ⟨fun _ tx hcommits => ?_, fun _ => rfl⟩
    obtain ⟨userId', hex⟩ := hcommits.accepted
    exact absurd hex (hno _ userId')
  · obtain rfl : userId = userId' := Option.some.inj (huser.symm.trans hex.user)
    rw [heq]
    by_cases hcommit : statement = .commitTransaction
    · subst hcommit
      cases htx : s.server.engine.transactionOf (requestSession s a) with
      | none =>
          refine iff_of_true ?_ fun tx hcommits => ?_
          · exact executeSql_contents _ _ h.engine hex.parsed (fun _ => htx)
              (hnone.changedDatabase hex.permitted)
          · cases htx.symm.trans hcommits.found
      | some tx =>
          rw [executeSql_commit _ _ hex.parsed htx]
          constructor
          · intro hsame tx' hcommits
            obtain rfl : tx = tx' := Option.some.inj (htx.symm.trans hcommits.found)
            exact hsame
          · intro hall
            exact hall tx ⟨⟨userId, hex⟩, htx⟩
    · refine iff_of_true ?_ fun tx hcommits => ?_
      · exact executeSql_contents _ _ h.engine hex.parsed (fun heq => absurd heq hcommit)
          (hnone.changedDatabase hex.permitted)
      · obtain ⟨userId', hex'⟩ := hcommits.accepted
        exact absurd (Result.ok.inj (hex.parsed.symm.trans hex'.parsed)) hcommit

/-! ## §3. Transactions along a run. -/

/-- The key of the transaction a request belongs to. -/
def requestKey (s : System ν) (a : SqlRequest) : Str := transactionKey (requestSession s a)

/-- The request is not sent by a user with permissions on the database. -/
def WithoutPermissions (w : World ν) (d : Str) (s : System ν) (a : SqlRequest) : Prop :=
  ∀ userId, requestUser w s a = some userId → HoldsNone s.controller userId d

/-- **The transaction with this key was begun in the run, when the database had
these contents**; it has been open since, nobody has tried to COMMIT it, and no
user with permissions on the database has worked in it. -/
inductive BegunIn (w : World ν) (d key : Str) (s₀ : System ν) : List SqlRequest → Contents → Prop
    where
  | begun {events : List SqlRequest} {a : SqlRequest}
      (hparse : parse a.2.payload = .ok .beginTransaction)
      (hkey : requestKey (Machine.run (sqlMachine w) s₀ events) a = key)
      (hnone : (Machine.run (sqlMachine w) s₀ events).server.engine.transactions.find? key = none) :
      BegunIn w d key s₀ (events ++ [a])
        (databaseContents (Machine.run (sqlMachine w) s₀ events).committed d)
  | later {events : List SqlRequest} {a : SqlRequest} {base : Contents}
      (h : BegunIn w d key s₀ events base)
      (hopen : ((Machine.run (sqlMachine w) s₀ events).server.engine.transactions.find?
        key).isSome = true)
      (hown : requestKey (Machine.run (sqlMachine w) s₀ events) a = key →
        parse a.2.payload ≠ .ok .commitTransaction ∧
          WithoutPermissions w d (Machine.run (sqlMachine w) s₀ events) a) :
      BegunIn w d key s₀ (events ++ [a]) base

theorem run_concat (s₀ : System ν) (events : List SqlRequest) (a : SqlRequest) :
    Machine.run (sqlMachine w) s₀ (events ++ [a])
      = (sqlMachine w (Machine.run (sqlMachine w) s₀ events) a).1 := by
  rw [Machine.run_append]
  rfl

theorem standalone_run {s₀ : System ν} (h₀ : Standalone s₀) (events : List SqlRequest) :
    Standalone (Machine.run (sqlMachine w) s₀ events) := by
  induction events using List.reverseRecOn with
  | nil => exact h₀
  | append_singleton events a ih =>
      rw [run_concat]
      exact standalone_step ih a

/-- Statements leave accounts and grants alone. -/
theorem controller_run {s₀ : System ν} (h₀ : Standalone s₀) (events : List SqlRequest) :
    (Machine.run (sqlMachine w) s₀ events).controller = s₀.controller := by
  induction events using List.reverseRecOn with
  | nil => rfl
  | append_singleton events a ih =>
      rw [run_concat, (handleSql_cases (standalone_run h₀ events) a).1]
      exact ih

/-- A BEGIN that opens a transaction copies what is committed. -/
theorem begin_working {s : System ν} (h : Standalone s) {a : SqlRequest} {d key : Str}
    (hparse : parse a.2.payload = .ok .beginTransaction) (hkey : requestKey s a = key)
    (hnone : s.server.engine.transactions.find? key = none) {tx : TransactionContext}
    (htx : (sqlMachine w s a).1.server.engine.transactions.find? key = some tx) :
    databaseContents tx.store d = databaseContents s.committed d := by
  obtain ⟨-, -, ⟨-, heq⟩ | ⟨statement, userId, hex, heq⟩⟩ := handleSql_cases (w := w) h a
  · rw [heq, hnone] at htx
    cases htx
  · subst hkey
    have hfree : s.server.engine.transactionOf (requestSession s a) = none := hnone
    obtain ⟨tx', htx', hcopy⟩ := executeSql_begin a.1.env a.1.files h.engine hparse hfree
    rw [heq] at htx
    obtain rfl : tx' = tx := Option.some.inj (htx'.symm.trans htx)
    exact hcopy d

/-- A request leaves the copy of the database in an open transaction, where it
is of another client, or of a user without permissions and no COMMIT. -/
theorem later_working {s : System ν} (h : Standalone s) {a : SqlRequest} {d key : Str}
    {tx : TransactionContext} (hopen : s.server.engine.transactions.find? key = some tx)
    (hown : requestKey s a = key → parse a.2.payload ≠ .ok .commitTransaction ∧
      WithoutPermissions w d s a) {tx' : TransactionContext}
    (htx : (sqlMachine w s a).1.server.engine.transactions.find? key = some tx') :
    databaseContents tx'.store d = databaseContents tx.store d := by
  obtain ⟨-, -, ⟨-, heq⟩ | ⟨statement, userId, hex, heq⟩⟩ := handleSql_cases (w := w) h a
  · rw [heq, hopen] at htx
    cases htx
    rfl
  · rw [heq] at htx
    by_cases hkey : requestKey s a = key
    · obtain ⟨hcommit, hwithout⟩ := hown hkey
      subst hkey
      refine executeSql_working a.1.env a.1.files h.engine hex.parsed hopen ?_
        ((hwithout userId hex.user).changedDatabase hex.permitted) tx' htx
      rintro rfl
      exact hcommit hex.parsed
    · have hframe := executeSqlImpl_frame a.1.env a.1.files s.server.engine (requestSession s a)
        a.2.payload true (Ne.symm hkey)
      rw [show (executeSql a.1.env a.1.files s.server.engine (requestSession s a)
        a.2.payload).1.transactions.find? key = _ from hframe, hopen] at htx
      cases htx
      rfl

/-- **The copy of the database in such a transaction is that of its BEGIN.** -/
theorem BegunIn.working {d key : Str} {s₀ : System ν} (h₀ : Standalone s₀)
    {events : List SqlRequest} {base : Contents} (h : BegunIn w d key s₀ events base) :
    ∀ tx, (Machine.run (sqlMachine w) s₀ events).server.engine.transactions.find? key = some tx →
      databaseContents tx.store d = base := by
  induction h with
  | begun hparse hkey hnone =>
      intro tx htx
      rw [run_concat] at htx
      exact begin_working (standalone_run h₀ _) hparse hkey hnone htx
  | later _ hopen hown ih =>
      intro tx' htx
      rw [run_concat] at htx
      obtain ⟨tx, hfound⟩ := Option.isSome_iff_exists.mp hopen
      rw [later_working (standalone_run h₀ _) hfound hown htx]
      exact ih tx hfound

/-! ## §4. Runs. -/

/-- **Writes stay within the caller's databases.**  In every run, a request of
a user who holds no permission to change anything in a database leaves its
schemas and rows as they are, exactly when it does not commit a transaction
whose copy of the database is another.  In a transaction that was begun in the
run and in which no user with permissions has worked, that copy is the
database at its BEGIN. -/
theorem writes_stay_within {s₀ : System ν} (h₀ : Standalone s₀) (events : List SqlRequest)
    (a : SqlRequest) {userId d : Str}
    (huser : requestUser w (Machine.run (sqlMachine w) s₀ events) a = some userId)
    (hnone : HoldsNone (Machine.run (sqlMachine w) s₀ events).controller userId d) :
    (databaseContents (Machine.run (sqlMachine w) s₀ (events ++ [a])).committed d
        = databaseContents (Machine.run (sqlMachine w) s₀ events).committed d ↔
      ∀ tx, CommitsCopy w (Machine.run (sqlMachine w) s₀ events) a tx →
        databaseContents tx.store d
          = databaseContents (Machine.run (sqlMachine w) s₀ events).committed d) ∧
    ∀ base, BegunIn w d (requestKey (Machine.run (sqlMachine w) s₀ events) a) s₀ events base →
      ∀ tx, CommitsCopy w (Machine.run (sqlMachine w) s₀ events) a tx →
        databaseContents tx.store d = base := by
  refine ⟨?_, fun base hbegun tx hcommits => hbegun.working h₀ tx hcommits.found⟩
  rw [run_concat]
  exact step_contents (standalone_run h₀ events) huser hnone

/-! ## §5. Two users. -/

/-- The signature of the token of `root` that expires at 10. -/
def rootDigest : Nat := 0x1ec0d1e5f5bba14350757000461ac6b5af19b697bb13eccb2a1c3972100b31fd

/-- What the token of a user that expires at 10 signs. -/
def signedText (userId : Str) : Str :=
  base64UrlEncode kJwtHeaderJson ++ str "." ++ base64UrlEncode (payloadJson userId 10)

/-- HMAC-SHA256 on one password and on the tokens of `ann` and `root`. -/
def twoUsersHmac : Hmac := fun key message =>
  if key = str "k" ∧ message = signedText (str "root") then some (digestOfNat rootDigest)
  else sampleHmac passwordDigest annDigest key message

/-- A world without nodes in which both can sign. -/
def twoUsersWorld : World Unit := { nodelessWorld with hmac := twoUsersHmac }

/-- The administrator `root`, and `ann`, who may write to `a` only. -/
def twoUsers : AccessController :=
  (grantUser (withAccount annDigest (withAccount annDigest emptyController (str "root"))
    (str "ann")) (str "a") (str "ann") .write .written).1

/-- Databases `a` and `b`, and an empty table `b.t`. -/
@[irreducible] def twoDatabases : DbmsEngine :=
  (runTexts sampleEnv Io.good freshEngine ⟨str "y", []⟩
    [str "CREATE DATABASE a;", str "CREATE DATABASE b;", str "USE b;",
      str "CREATE TABLE t (k INT);"]).1

theorem reachable_twoDatabases : Reachable twoDatabases := by
  unfold twoDatabases
  exact reachable_runTexts sampleEnv Io.good reachable_freshEngine _ _

/-- A server over an engine, with a client of `ann` in `a` and one of `root` in
`b`. -/
def twoClients (engine : DbmsEngine) : System Unit where
  server :=
    { (serverOver engine).server with
      accessController := twoUsers
      sessions := ⟨[(str "x", ⟨str "x", str "a"⟩), (str "y", ⟨str "y", str "b"⟩)], by decide⟩ }
  net := ()

theorem standalone_twoClients {engine : DbmsEngine} (h : EngineOk engine) :
    Standalone (twoClients engine) :=
  ⟨h, rfl, show twoUsers.hasAccounts = true by decide⟩

/-- A request of one of the users. -/
def sentBy (userId client payload : Str) : SqlRequest :=
  (quietContext, ⟨client, issueToken twoUsersHmac twoUsers userId 10, payload⟩)

instance decidableHoldsNone (ac : AccessController) (userId databaseName : Str) :
    Decidable (HoldsNone ac userId databaseName) :=
  inferInstanceAs (Decidable (∀ p ∈ changePermissions, authorize ac userId databaseName p = false))

/-- The requests of a transaction of `ann` alone. -/
def annBegins : SqlRequest := sentBy (str "ann") (str "x") (str "BEGIN;")

def annCommits : SqlRequest := sentBy (str "ann") (str "x") (str "COMMIT;")

/-- The insert of `root` into the database of `root`. -/
def rootInserts : SqlRequest :=
  sentBy (str "root") (str "y") (str "INSERT INTO t (k) VALUES (1);")

/-- The server before the COMMIT. -/
def beforeCommit (events : List SqlRequest) : System Unit :=
  Machine.run (sqlMachine twoUsersWorld) (twoClients twoDatabases) events

theorem holdsNone_ann (events : List SqlRequest) :
    HoldsNone (beforeCommit events).controller (str "ann") (str "b") := by
  have hstart := standalone_twoClients (reachable_ok reachable_twoDatabases)
  rw [beforeCommit, controller_run hstart]
  show HoldsNone twoUsers (str "ann") (str "b")
  decide

theorem requestUser_ann (events : List SqlRequest) (payload : Str) :
    requestUser twoUsersWorld (beforeCommit events) (sentBy (str "ann") (str "x") payload)
      = some (str "ann") := by
  have hstart := standalone_twoClients (reachable_ok reachable_twoDatabases)
  rw [requestUser, beforeCommit, controller_run hstart]
  show validateTokenAndGetUser twoUsersHmac twoUsers 0
    (issueToken twoUsersHmac twoUsers (str "ann") 10) = some (str "ann")
  decide +kernel

/-- A transaction of `ann` alone leaves the database `b`. -/
theorem writes_stay_within_ann :
    databaseContents (beforeCommit ([annBegins] ++ [annCommits])).committed (str "b")
      = databaseContents (beforeCommit []).committed (str "b") := by
  have hstart := standalone_twoClients (reachable_ok reachable_twoDatabases)
  have hbegin : databaseContents (beforeCommit ([] ++ [annBegins])).committed (str "b")
      = databaseContents (beforeCommit []).committed (str "b") := by
    refine (writes_stay_within hstart [] annBegins (requestUser_ann [] _)
      (holdsNone_ann [])).1.mpr fun tx hcommits => ?_
    obtain ⟨userId, hex⟩ := hcommits.accepted
    have hother : parse annBegins.2.payload ≠ .ok .commitTransaction := by decide +kernel
    exact absurd hex.parsed hother
  have hopened : BegunIn twoUsersWorld (str "b") (str "x") (twoClients twoDatabases)
      ([] ++ [annBegins]) (databaseContents (beforeCommit []).committed (str "b")) :=
    .begun (by decide +kernel) (show requestKey (beforeCommit []) annBegins = str "x" by
      decide +kernel) (show (beforeCommit []).server.engine.transactions.find? (str "x") = none by
      decide +kernel)
  have hkey : requestKey (beforeCommit ([] ++ [annBegins])) annCommits = str "x" := by
    decide +kernel
  obtain ⟨hiff, hcopy⟩ := writes_stay_within hstart ([] ++ [annBegins]) annCommits
    (requestUser_ann _ _) (holdsNone_ann _)
  rw [← hbegin]
  refine hiff.mpr fun tx hcommits => ?_
  rw [hcopy _ (show BegunIn twoUsersWorld (str "b") (requestKey (beforeCommit _) annCommits) _ _ _
    from hkey.symm ▸ hopened) tx hcommits]
  exact hbegin.symm

/-- The rows of the table `b.t`, as `databaseContents` shows them. -/
def shownRows (c : Contents) : Option (List RowData) :=
  (c.bind fun tables => tables (str "t")).map Prod.snd

/-- **A COMMIT loses the update of another user in another database.**  The
transaction of `ann` began before the insert of `root`; its COMMIT brings back
the empty table. -/
theorem commit_overwrites_other_database :
    Standalone (twoClients twoDatabases) ∧
    requestUser twoUsersWorld (beforeCommit [annBegins, rootInserts]) annCommits
      = some (str "ann") ∧
    isAdmin (beforeCommit [annBegins, rootInserts]).controller (str "ann") = false ∧
    HoldsNone (beforeCommit [annBegins, rootInserts]).controller (str "ann") (str "b") ∧
    databaseContents (beforeCommit ([annBegins, rootInserts] ++ [annCommits])).committed (str "b")
      ≠ databaseContents (beforeCommit [annBegins, rootInserts]).committed (str "b") := by
  have hstart := standalone_twoClients (reachable_ok reachable_twoDatabases)
  have hadmin : isAdmin (beforeCommit [annBegins, rootInserts]).controller (str "ann") = false := by
    rw [beforeCommit, controller_run hstart]
    show isAdmin twoUsers (str "ann") = false
    decide
  refine ⟨hstart, requestUser_ann _ _, hadmin, holdsNone_ann _, ?_⟩
  intro hsame
  have hrows := congrArg shownRows hsame
  revert hrows
  decide +kernel

end CustomDbms.Server
