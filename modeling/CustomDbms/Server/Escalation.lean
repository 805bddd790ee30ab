/-
  CustomDbms.Server.Escalation
  ────────────────────────────
  **WHAT AN UNPRIVILEGED CALLER CAN DO WITH AUTH.**

  Eight of the nine commands that write ask for an administrator's token.
  `REGISTER` asks for nothing and takes the group from the caller.

    • `authCommand_cases` — without an administrator's token the controller is
      left as it was, or `REGISTER` has run.
    • `auth_unescalated_iff` — over a run of AUTH requests, administrators and
      rights stay what they were exactly when no request registers a new
      account in group `admin`.
-/
import CustomDbms.Core.EngineInvariant
import CustomDbms.Lib.Runs
import CustomDbms.Server.Entrypoint

namespace CustomDbms.Server

open CustomDbms.Common CustomDbms.Lib CustomDbms.Parser CustomDbms.Catalog CustomDbms.Network
open CustomDbms.Core CustomDbms.Runtime

/-! ## §1. Words. -/

theorem ne_nil_of_mem_splitWhitespaceFrom {current s t : Str}
    (h : t ∈ splitWhitespaceFrom current s) : t ≠ [] := by
  induction s generalizing current with
  | nil =>
      unfold splitWhitespaceFrom at h
      split at h
      · cases h
      · rename_i hne
        rw [List.mem_singleton.mp h]
        exact hne
  | cons c s ih =>
      unfold splitWhitespaceFrom at h
      split at h
      · split at h
        · exact ih h
        · rename_i hne
          rcases List.mem_cons.mp h with rfl | h
          · exact hne
          · exact ih h
      · exact ih h

/-- The words of a command are not empty. -/
theorem commandOf_args_ne_nil {family payload command : Str} {args : List Str}
    (h : commandOf family payload = some (command, args)) : ∀ arg ∈ args, arg ≠ [] := by
  intro arg harg
  unfold commandOf at h
  split at h
  · rename_i word command' args' hwords
    split at h
    · cases h
      have hmem : arg ∈ splitWhitespace payload := by
        rw [hwords]
        simp [harg]
      exact ne_nil_of_mem_splitWhitespaceFrom hmem
    · cases h
  · cases h

/-- A payload belongs to one family of commands. -/
theorem commandOf_other {family other payload : Str} {p : Str × List Str} (hne : family ≠ other)
    (h : commandOf family payload = some p) : commandOf other payload = none := by
  unfold commandOf at h ⊢
  split at h
  · rename_i word command args hwords
    split at h
    · rename_i hword
      rw [if_neg (hword ▸ hne)]
    · cases h
  · cases h

variable {ν : Type} {w : World ν}

theorem stripStart_cluster_of_auth {payload : Str} {p : Str × List Str}
    (h : commandOf (str "AUTH") payload = some p) :
    stripStart (str "CLUSTER PREPARE_TX ") payload = none ∧
    stripStart (str "CLUSTER COMMIT_TX ") payload = none ∧
    stripStart (str "CLUSTER ABORT_TX ") payload = none := by
  simp only [stripStart_eq_none]
  refine ⟨?_, ?_, ?_⟩
  · rintro ⟨rest, rfl⟩
    cases (show commandOf (str "AUTH") (str "CLUSTER PREPARE_TX " ++ rest) = none from rfl).symm.trans h
  · rintro ⟨rest, rfl⟩
    cases (show commandOf (str "AUTH") (str "CLUSTER COMMIT_TX " ++ rest) = none from rfl).symm.trans h
  · rintro ⟨rest, rfl⟩
    cases (show commandOf (str "AUTH") (str "CLUSTER ABORT_TX " ++ rest) = none from rfl).symm.trans h

/-- **An AUTH request reaches `ParseAuthCommand`.** -/
theorem handleRequest_auth (ctx : RequestContext) (s : System ν) {request : RequestEnvelope}
    {p : Str × List Str} (h : commandOf (str "AUTH") request.payload = some p) :
    handleRequest w ctx s request =
      let r := authCommand w.hmac s.server.accessController ctx.toAuthContext request.jwtToken
        p.1 p.2
      ({ s with server := { s.server with accessController := r.1 } }, r.2) := by
  obtain ⟨hprepare, hcommit, habort⟩ := stripStart_cluster_of_auth h
  have hcluster : parseClusterCommand w ctx s request = none := by
    rw [parseClusterCommand, hprepare, hcommit, habort]
    dsimp only
    rw [commandOf_other (by decide) h]
    rfl
  have hasync : parseAsyncCommand w s request = none := by
    rw [parseAsyncCommand, commandOf_other (by decide) h]
    rfl
  have htelemetry : parseTelemetryCommand w ctx s request.payload = none := by
    rw [parseTelemetryCommand, commandOf_other (by decide) h]
    rfl
  have hauth : parseAuthCommand w.hmac s.server.accessController ctx.toAuthContext request
      = some (authCommand w.hmac s.server.accessController ctx.toAuthContext request.jwtToken
          p.1 p.2) := by
    rw [parseAuthCommand, h]
    rfl
  rw [handleRequest, hcluster, hasync, htelemetry, hauth]

/-! ## §2. Commands without an administrator's token. -/

/-- The token is that of an administrator. -/
def carriesAdminToken (hmac : Hmac) (ac : AccessController) (now : Int64) (jwtToken : Str) : Bool :=
  match validateTokenAndGetUser hmac ac now jwtToken with
  | none => false
  | some userId => isAdmin ac userId

theorem requireAdmin_isSome {hmac : Hmac} {ac : AccessController} {now : Int64} {jwtToken : Str}
    (h : carriesAdminToken hmac ac now jwtToken = false) :
    ∃ response, requireAdmin hmac ac now jwtToken = some response := by
  unfold carriesAdminToken at h
  unfold requireAdmin
  split
  · exact ⟨_, rfl⟩
  · split
    · exact ⟨_, rfl⟩
    · rename_i userId huser
      rw [huser] at h
      dsimp only at h
      rw [h]
      exact ⟨_, rfl⟩

/-- **Without an administrator's token only `REGISTER` writes.** -/
theorem authCommand_cases {hmac : Hmac} {ac : AccessController} {ctx : AuthContext}
    {jwtToken : Str} (h : carriesAdminToken hmac ac ctx.now jwtToken = false) (command : Str)
    (args : List Str) :
    ((∀ userId password rest, command = str "REGISTER" → args ≠ userId :: password :: rest) ∧
      (authCommand hmac ac ctx jwtToken command args).1 = ac) ∨
    ∃ userId password rest, command = str "REGISTER" ∧ args = userId :: password :: rest ∧
      authCommand hmac ac ctx jwtToken command args
        = registerCommand hmac ac ctx userId password rest := by
  obtain ⟨response, hresponse⟩ := requireAdmin_isSome h
  have hadmin : ∀ c, (asAdmin hmac ac ctx jwtToken c).1 = ac := by
    intro c
    rw [asAdmin, hresponse]
  have hlogin : ∀ userId password, (loginCommand hmac ac ctx userId password).1 = ac := by
    intro userId password
    unfold loginCommand
    split
    · rfl
    · rfl
  by_cases hregister : command = str "REGISTER"
  · subst hregister
    cases args with
    | nil => exact .inl ⟨by simp, rfl⟩
    | cons userId args =>
        cases args with
        | nil => exact .inl ⟨by simp, rfl⟩
        | cons password rest => exact .inr ⟨userId, password, rest, rfl, rfl, rfl⟩
  · refine .inl ⟨fun _ _ _ hcommand => absurd hcommand hregister, ?_⟩
    unfold authCommand
    rw [if_neg hregister]
    -- every other branch is LOGIN, WHOAMI, a refusal, or behind `require_admin`
    repeat' split
    all_goals first
      | rfl
      | exact hadmin _
      | exact hlogin _ _

/-! ## §3. A registration. -/

/-- The group an account gets. -/
def registeredGroup (ac : AccessController) (rest : List Str) : Str :=
  let group := rest.head?.getD (if ac.hasAccounts then str "user" else str "admin")
  if group = [] then (if ac.accounts.keys = [] then str "admin" else str "user") else group

/-- **What `REGISTER` does**: nothing, or one account that was not there, in
one group. -/
theorem registerCommand_cases (hmac : Hmac) (ac : AccessController) (ctx : AuthContext)
    (userId password : Str) (rest : List Str) :
    ((registerCommand hmac ac ctx userId password rest).1 = ac ∧
      (userId = [] ∨ password = [] ∨ ac.accounts.contains userId = true)) ∨
    (ac.accounts.find? userId = none ∧
      ∃ record groups, record.groups = [registeredGroup ac rest] ∧
        (registerCommand hmac ac ctx userId password rest).1 =
          { ac with groups, accounts := ac.accounts.emplace userId record }) := by
  unfold registerCommand registerAccount answerOperation
  dsimp only
  split
  · rename_i hempty
    exact .inl ⟨rfl, hempty.elim .inl (fun h => .inr (.inl h))⟩
  · split
    · rename_i hthere
      exact .inl ⟨rfl, .inr (.inr hthere)⟩
    · rename_i hnew
      have hfree : ac.accounts.find? userId = none := by simpa [Dict.contains] using hnew
      exact .inr ⟨hfree, _, _, rfl, rfl⟩

/-- With accounts in place only the caller's own word makes a new account an
administrator. -/
theorem registeredGroup_eq_admin {ac : AccessController} (h : ac.hasAccounts = true)
    {rest : List Str} (hne : ∀ arg ∈ rest, arg ≠ []) :
    registeredGroup ac rest = str "admin" ↔ rest.head? = some (str "admin") := by
  unfold registeredGroup
  cases rest with
  | nil =>
      rw [h]
      show (if str "user" = [] then _ else str "user") = str "admin" ↔ none = some (str "admin")
      rw [if_neg (by decide)]
      decide
  | cons group rest =>
      have hgroup : group ≠ [] := hne group (by simp)
      simp [hgroup]

/-- The request registers a new account in group `admin`. -/
def registersAdmin (ac : AccessController) (payload : Str) : Bool :=
  match commandOf (str "AUTH") payload with
  | some (command, userId :: _ :: group :: _) =>
      command = str "REGISTER" && group = str "admin" && !ac.accounts.contains userId
  | _ => false

/-- Administrators, and the rights of every account there was, are the same. -/
structure Unescalated (ac ac' : AccessController) : Prop where
  admins : ∀ userId, isAdmin ac' userId = isAdmin ac userId
  rights : ∀ userId databaseName permission, ac.accounts.contains userId = true →
    authorize ac' userId databaseName permission = authorize ac userId databaseName permission

theorem Unescalated.refl (ac : AccessController) : Unescalated ac ac :=
  ⟨fun _ => rfl, fun _ _ _ _ => rfl⟩

theorem Unescalated.trans {a b c : AccessController} (h : Unescalated a b) (hext : Extends a b)
    (h' : Unescalated b c) : Unescalated a c := by
  refine ⟨fun userId => (h'.admins userId).trans (h.admins userId), ?_⟩
  intro userId databaseName permission hthere
  exact (h'.rights userId databaseName permission (hext.accounts userId hthere)).trans
    (h.rights userId databaseName permission hthere)

/-- The controller with one more account. -/
structure OneMore (ac ac' : AccessController) (userId : Str) (record : AccountRecord) : Prop where
  fresh : ac.accounts.find? userId = none
  accounts : ac'.accounts = ac.accounts.emplace userId record
  grants : ac'.databaseGrants = ac.databaseGrants
  secret : ac'.jwtSecret = ac.jwtSecret

section OneMore

variable {ac ac' : AccessController} {userId : Str} {record : AccountRecord}
  (h : OneMore ac ac' userId record)

include h

theorem OneMore.find? (x : Str) :
    ac'.accounts.find? x = if x = userId then some record else ac.accounts.find? x := by
  rw [h.accounts, Dict.find?_emplace h.fresh]

theorem OneMore.extends : Extends ac ac' := by
  refine ⟨h.secret, fun x hx => ?_⟩
  rw [Dict.contains, h.find? x]
  split
  · rfl
  · exact hx

theorem OneMore.isAdmin_self : isAdmin ac' userId = decide (str "admin" ∈ record.groups) := by
  rw [isAdmin, h.find? userId, if_pos rfl]

theorem OneMore.isAdmin_other {x : Str} (hx : x ≠ userId) : isAdmin ac' x = isAdmin ac x := by
  rw [isAdmin, h.find? x, if_neg hx, isAdmin]

theorem OneMore.not_admin_before : isAdmin ac userId = false := by
  rw [isAdmin, h.fresh]

/-- An account outside `admin` escalates nothing. -/
theorem OneMore.unescalated (hgroup : str "admin" ∉ record.groups) : Unescalated ac ac' := by
  have hadmins : ∀ x, isAdmin ac' x = isAdmin ac x := by
    intro x
    by_cases hx : x = userId
    · rw [hx, h.isAdmin_self, h.not_admin_before, decide_eq_false hgroup]
    · exact h.isAdmin_other hx
  refine ⟨hadmins, fun x databaseName permission hthere => ?_⟩
  have hx : x ≠ userId := by
    rintro rfl
    rw [Dict.contains, h.fresh] at hthere
    cases hthere
  have hfind : ac'.accounts.find? x = ac.accounts.find? x := by
    rw [h.find? x, if_neg hx]
  simp only [authorize, hfind, hadmins, h.grants]

end OneMore

/-! ## §4. Runs of AUTH requests. -/

/-- The server as a machine on requests. -/
def requestMachine (w : World ν) :
    Machine (System ν) (RequestContext × RequestEnvelope) (Option ResponseEnvelope) :=
  fun s a => handleRequest w a.1 s a.2

/-- The controller of a system. -/
def System.controller (s : System ν) : AccessController := s.server.accessController

/-- An AUTH request that carries no administrator's token. -/
def UnprivilegedAuth (w : World ν) (s : System ν) (a : RequestContext × RequestEnvelope) : Prop :=
  (commandOf (str "AUTH") a.2.payload).isSome = true ∧
    carriesAdminToken w.hmac s.controller a.1.now a.2.jwtToken = false

instance (s : System ν) (a : RequestContext × RequestEnvelope) :
    Decidable (UnprivilegedAuth w s a) :=
  inferInstanceAs (Decidable (_ ∧ _))

/-- **One request**: it changes nothing, or adds one account, in group `admin`
exactly where it registers one there. -/
theorem unprivilegedAuth_step {s : System ν} {a : RequestContext × RequestEnvelope}
    (h : UnprivilegedAuth w s a) (hacc : s.controller.hasAccounts = true) :
    (registersAdmin s.controller a.2.payload = false ∧
      (requestMachine w s a).1.controller = s.controller) ∨
    ∃ userId record, OneMore s.controller (requestMachine w s a).1.controller userId record ∧
      (str "admin" ∈ record.groups ↔ registersAdmin s.controller a.2.payload = true) := by
  obtain ⟨⟨command, args⟩, hcommand⟩ := Option.isSome_iff_exists.mp h.1
  have hstep : (requestMachine w s a).1.controller
      = (authCommand w.hmac s.controller a.1.toAuthContext a.2.jwtToken command args).1 := by
    rw [requestMachine, handleRequest_auth a.1 s hcommand]
    rfl
  have hargs := commandOf_args_ne_nil hcommand
  rcases authCommand_cases h.2 command args with
    ⟨hother, hsame⟩ | ⟨userId, password, rest, rfl, rfl, hregister⟩
  · refine .inl ⟨?_, hstep.trans hsame⟩
    unfold registersAdmin
    rw [hcommand]
    split
    · rename_i command' userId password group rest heq
      cases heq
      have hne : command ≠ str "REGISTER" := fun hc => hother userId password (group :: rest) hc rfl
      simp [hne]
    · rfl
  · have hgroup : registeredGroup s.controller rest = str "admin" ↔ _ :=
      registeredGroup_eq_admin hacc fun arg harg => hargs arg (by simp [harg])
    have hflag : registersAdmin s.controller a.2.payload = true ↔
        rest.head? = some (str "admin") ∧ s.controller.accounts.contains userId = false := by
      unfold registersAdmin
      rw [hcommand]
      cases rest with
      | nil => simp
      | cons group rest => simp
    rcases registerCommand_cases w.hmac s.controller a.1.toAuthContext userId password rest with
      ⟨hsame, hrefused⟩ | ⟨hfree, record, groups, hrecord, hnew⟩
    · refine .inl ⟨?_, by rw [hstep, hregister]; exact hsame⟩
      have hthere : s.controller.accounts.contains userId = true := by
        rcases hrefused with hu | hp | hthere
        · exact absurd hu (hargs userId (by simp))
        · exact absurd hp (hargs password (by simp))
        · exact hthere
      rw [← Bool.not_eq_true, hflag, hthere]
      simp
    · refine .inr ⟨userId, record, ⟨hfree, ?_, ?_, ?_⟩, ?_⟩
      · rw [hstep, hregister, hnew]
      · rw [hstep, hregister, hnew]
      · rw [hstep, hregister, hnew]
      · rw [hrecord, List.mem_singleton, eq_comm, hgroup, hflag]
        simp [Dict.contains, hfree]

theorem hasAccounts_iff {ac : AccessController} :
    ac.hasAccounts = true ↔ ∃ userId, ac.accounts.contains userId = true := by
  have hkeys : ac.hasAccounts = true ↔ ac.accounts.keys ≠ [] := by simp [AccessController.hasAccounts]
  rw [hkeys]
  constructor
  · intro h
    obtain ⟨userId, rest, hcons⟩ := List.exists_cons_of_ne_nil h
    obtain ⟨record, hrecord⟩ := Dict.mem_keys_iff.mp (by rw [hcons]; simp : userId ∈ ac.accounts.keys)
    exact ⟨userId, by rw [Dict.contains, hrecord]; rfl⟩
  · rintro ⟨userId, h⟩ hnil
    obtain ⟨record, hrecord⟩ := Option.isSome_iff_exists.mp h
    have hmem : userId ∈ ac.accounts.keys := Dict.mem_keys_iff.mpr ⟨record, hrecord⟩
    rw [hnil] at hmem
    cases hmem

theorem hasAccounts_of_extends {ac ac' : AccessController} (h : Extends ac ac')
    (hacc : ac.hasAccounts = true) : ac'.hasAccounts = true := by
  obtain ⟨userId, hthere⟩ := hasAccounts_iff.mp hacc
  exact hasAccounts_iff.mpr ⟨userId, h.accounts userId hthere⟩

section Step

variable {s : System ν} {a : RequestContext × RequestEnvelope} (h : UnprivilegedAuth w s a)
  (hacc : s.controller.hasAccounts = true)

include h hacc

theorem unprivilegedAuth_extends : Extends s.controller (requestMachine w s a).1.controller := by
  rcases unprivilegedAuth_step h hacc with ⟨-, hsame⟩ | ⟨userId, record, hmore, -⟩
  · rw [hsame]
    exact Extends.refl _
  · exact hmore.extends

/-- Nobody loses the group `admin`. -/
theorem unprivilegedAuth_admin_stays {userId : Str} (hadmin : isAdmin s.controller userId = true) :
    isAdmin (requestMachine w s a).1.controller userId = true := by
  rcases unprivilegedAuth_step h hacc with ⟨-, hsame⟩ | ⟨newId, record, hmore, -⟩
  · rw [hsame]
    exact hadmin
  · have hne : userId ≠ newId := by
      rintro rfl
      rw [hmore.not_admin_before] at hadmin
      cases hadmin
    rw [hmore.isAdmin_other hne]
    exact hadmin

theorem unprivilegedAuth_unescalated (hno : registersAdmin s.controller a.2.payload = false) :
    Unescalated s.controller (requestMachine w s a).1.controller := by
  rcases unprivilegedAuth_step h hacc with ⟨-, hsame⟩ | ⟨userId, record, hmore, hgroup⟩
  · rw [hsame]
    exact Unescalated.refl _
  · refine hmore.unescalated fun hadmin => ?_
    rw [hgroup.mp hadmin] at hno
    cases hno

theorem unprivilegedAuth_escalates (hyes : registersAdmin s.controller a.2.payload = true) :
    ∃ userId, s.controller.accounts.contains userId = false ∧
      isAdmin (requestMachine w s a).1.controller userId = true := by
  rcases unprivilegedAuth_step h hacc with ⟨hno, -⟩ | ⟨userId, record, hmore, hgroup⟩
  · rw [hno] at hyes
    cases hyes
  · refine ⟨userId, by rw [Dict.contains, hmore.fresh]; rfl, ?_⟩
    rw [hmore.isAdmin_self, decide_eq_true (hgroup.mpr hyes)]

end Step

section Run

variable {s : System ν} {requests : List (RequestContext × RequestEnvelope)}
  (hacc : s.controller.hasAccounts = true)
  (h : Machine.Along (requestMachine w) (UnprivilegedAuth w) s requests)

include hacc h

theorem unprivilegedAuth_run_extends :
    Extends s.controller (Machine.run (requestMachine w) s requests).controller := by
  have hinv := h.invariant (I := fun t => Extends s.controller t.controller)
    (fun t a hext hstep => hext.trans
      (unprivilegedAuth_extends hstep (hasAccounts_of_extends hext hacc)))
    (Extends.refl _)
  exact hinv

theorem unprivilegedAuth_run_admin_stays {userId : Str}
    (hadmin : isAdmin s.controller userId = true) :
    isAdmin (Machine.run (requestMachine w) s requests).controller userId = true := by
  have hinv := h.invariant
    (I := fun t => t.controller.hasAccounts = true ∧ isAdmin t.controller userId = true)
    (fun t a ht hstep => ⟨hasAccounts_of_extends (unprivilegedAuth_extends hstep ht.1) ht.1,
      unprivilegedAuth_admin_stays hstep ht.1 ht.2⟩)
    ⟨hacc, hadmin⟩
  exact hinv.2

/-- **AUTH requests without an administrator's token leave administrators and
rights as they were exactly when none of them registers a new account in group
`admin`.** -/
theorem auth_unescalated_iff :
    Unescalated s.controller (Machine.run (requestMachine w) s requests).controller ↔
      Machine.Along (requestMachine w)
        (fun t a => registersAdmin t.controller a.2.payload = false) s requests := by
  constructor
  · intro hsame
    by_contra hnot
    obtain ⟨front, a, back, hsplit, hyes⟩ := Machine.exists_of_not_along hnot
    rw [Bool.not_eq_false] at hyes
    rw [hsplit, Machine.along_append] at h
    obtain ⟨hfront, hstep, hback⟩ := h
    have hext := unprivilegedAuth_run_extends hacc hfront
    have haccFront := hasAccounts_of_extends hext hacc
    obtain ⟨userId, hnew, hadmin⟩ := unprivilegedAuth_escalates hstep haccFront hyes
    have hend := unprivilegedAuth_run_admin_stays
      (hasAccounts_of_extends (unprivilegedAuth_extends hstep haccFront) haccFront) hback hadmin
    -- the new administrator was no account at the start
    have hbefore : isAdmin s.controller userId = false := by
      have hnone : s.controller.accounts.find? userId = none := by
        cases hfind : s.controller.accounts.find? userId with
        | none => rfl
        | some record =>
            have hthere := hext.accounts userId (by rw [Dict.contains, hfind]; rfl)
            rw [hnew] at hthere
            cases hthere
      rw [isAdmin, hnone]
    have hadmins := hsame.admins userId
    rw [hsplit, Machine.run_append, hbefore] at hadmins
    rw [show Machine.run (requestMachine w) (Machine.run (requestMachine w) s front) (a :: back)
      = Machine.run (requestMachine w) (requestMachine w (Machine.run (requestMachine w) s front)
          a).1 back from rfl, hend] at hadmins
    cases hadmins
  · intro hno
    have hinv := (h.and hno).invariant
      (I := fun t => Extends s.controller t.controller ∧ Unescalated s.controller t.controller)
      (fun t a ht hstep =>
        have htacc := hasAccounts_of_extends ht.1 hacc
        ⟨ht.1.trans (unprivilegedAuth_extends hstep.1 htacc),
          ht.2.trans ht.1 (unprivilegedAuth_unescalated hstep.1 htacc hstep.2)⟩)
      ⟨Extends.refl _, Unescalated.refl _⟩
    exact hinv.2

end Run

/-! ## §5. A server with one administrator. -/

/-- A world without nodes. -/
def nodelessWorld : World Unit where
  forward := fun _ _ _ => ((), none)
  newGuid := fun _ => ((), str "00000000-0000-4000-8000-000000000000")
  hashes := ⟨fun _ => 0, fun _ => 0⟩
  hmac := sampleHmac passwordDigest 0

/-- A request on a quiet day. -/
def quietContext : RequestContext where
  now := 0
  salt := str "s"
  io := .written
  env := sampleEnv
  files := Io.good
  telemetryLocal := []
  telemetrySnapshot := fun _ => []

/-- A server over an engine, with the administrator `root`. -/
def serverOver (engine : DbmsEngine) : System Unit where
  server :=
    { engine
      jobQueue := ⟨[], Dict.empty, none⟩
      accessController := withAccount 0 emptyController (str "root")
      sessions := Dict.empty
      storageNodes := []
      pendingClusterTransactions := Dict.empty }
  net := ()

/-- Requests of one client that carry no token. -/
def anonymously (payloads : List Str) : List (RequestContext × RequestEnvelope) :=
  payloads.map fun payload => (quietContext, ⟨str "eve", [], payload⟩)

theorem auth_unescalated_bob :
    Unescalated (serverOver freshEngine).controller
      (Machine.run (requestMachine nodelessWorld) (serverOver freshEngine)
        (anonymously [str "AUTH REGISTER bob pw", str "AUTH WHOAMI"])).controller := by
  have hauth : Machine.Along (requestMachine nodelessWorld) (UnprivilegedAuth nodelessWorld)
      (serverOver freshEngine)
      (anonymously [str "AUTH REGISTER bob pw", str "AUTH WHOAMI"]) := by
    decide +kernel
  exact (auth_unescalated_iff (by decide +kernel) hauth).mpr (by decide +kernel)

/-- **Anyone makes himself an administrator.** -/
theorem anyone_registers_admin :
    let requests := anonymously [str "AUTH REGISTER eve pw admin"]
    (serverOver freshEngine).controller.hasAccounts = true ∧
    Machine.Along (requestMachine nodelessWorld) (UnprivilegedAuth nodelessWorld)
      (serverOver freshEngine) requests ∧
    isAdmin (Machine.run (requestMachine nodelessWorld) (serverOver freshEngine)
      requests).controller (str "eve") = true ∧
    ¬ Unescalated (serverOver freshEngine).controller
      (Machine.run (requestMachine nodelessWorld) (serverOver freshEngine) requests).controller := by
  have hadmin : isAdmin (Machine.run (requestMachine nodelessWorld) (serverOver freshEngine)
      (anonymously [str "AUTH REGISTER eve pw admin"])).controller (str "eve") = true := by
    decide +kernel
  refine ⟨by decide +kernel, by decide +kernel, hadmin, ?_⟩
  intro hsame
  have hadmins := hsame.admins (str "eve")
  rw [hadmin] at hadmins
  revert hadmins
  decide +kernel

end CustomDbms.Server
