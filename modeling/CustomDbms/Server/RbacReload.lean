/-
  CustomDbms.Server.RbacReload
  ────────────────────────────
  **ACCOUNTS, GROUPS AND GRANTS ACROSS A RESTART.**

  The words of an AUTH command are not empty and hold no white space, so every
  controller the commands build can be stored.  A comma is an ordinary byte of
  a word and the separator inside the stored list of groups: an account in
  group `x,admin` is an administrator after the next start.
-/
import CustomDbms.Catalog.RbacRoundTrip
import CustomDbms.Server.Escalation

namespace CustomDbms.Server

open CustomDbms.Common CustomDbms.Lib CustomDbms.Parser CustomDbms.Catalog CustomDbms.Network

/-! ## §1. Words. -/

theorem newline_not_mem_of_mem_splitWhitespaceFrom {current s t : Str} (hc : newline ∉ current)
    (h : t ∈ splitWhitespaceFrom current s) : newline ∉ t := by
  induction s generalizing current with
  | nil =>
      unfold splitWhitespaceFrom at h
      split at h
      · cases h
      · rw [List.mem_singleton.mp h]
        exact hc
  | cons c s ih =>
      unfold splitWhitespaceFrom at h
      split at h
      · split at h
        · exact ih (by simp) h
        · rcases List.mem_cons.mp h with rfl | h
          · exact hc
          · exact ih (by simp) h
      · rename_i hspace
        refine ih ?_ h
        have hne : c ≠ newline := by rintro rfl; exact hspace (by decide)
        simp [hc, Ne.symm hne]

/-- The words of a command stand on one line. -/
theorem commandOf_args_newline {family payload command : Str} {args : List Str}
    (h : commandOf family payload = some (command, args)) : ∀ arg ∈ args, newline ∉ arg := by
  intro arg harg
  unfold commandOf at h
  split at h
  · rename_i word command' args' hwords
    split at h
    · cases h
      have hmem : arg ∈ splitWhitespace payload := by
        rw [hwords]
        simp [harg]
      exact newline_not_mem_of_mem_splitWhitespaceFrom (by simp) hmem
    · cases h
  · cases h

/-! ## §2. Commands keep a controller storable. -/

section Commands

variable {hmac : Hmac} {ac : AccessController} {ctx : AuthContext}

theorem storable_asAdmin (h : Storable ac) (jwtToken : Str)
    {command : AccessController × Option ResponseEnvelope} (hcommand : Storable command.1) :
    Storable (asAdmin hmac ac ctx jwtToken command).1 := by
  unfold asAdmin
  split
  · exact h
  · exact hcommand

theorem storable_withPermission (h : Storable ac) (permissionName success : Str)
    {operation : Permission → AccessController × Outcome}
    (hoperation : ∀ permission, Storable (operation permission).1) :
    Storable (withPermission ac permissionName success operation).1 := by
  unfold withPermission
  split
  · exact h
  · exact hoperation _

theorem storable_revokeGrant (h : Storable ac) {databaseName : Str} {target : GrantTarget}
    (hname : databaseName ≠ []) (hline : newline ∉ databaseName)
    (htarget : ∀ name, target = .group name ∨ target = .user name → newline ∉ name)
    (permission : Permission) (io : PersistOutcome) :
    Storable (revokeGrant ac databaseName target permission io).1 := by
  unfold revokeGrant
  split
  · exact h
  · exact h.updateGrant hname hline htarget _

theorem storable_ite {c : Prop} [Decidable c]
    {x y : AccessController × Option ResponseEnvelope} (hx : c → Storable x.1)
    (hy : ¬ c → Storable y.1) : Storable (if c then x else y).1 := by
  split
  · exact hx ‹c›
  · exact hy ‹¬ c›

/-- **Every AUTH command leaves a storable controller storable.** -/
theorem storable_authCommand (h : Storable ac) (hsalt : newline ∉ ctx.salt) (jwtToken command : Str)
    {args : List Str} (hne : ∀ arg ∈ args, arg ≠ []) (hline : ∀ arg ∈ args, newline ∉ arg) :
    Storable (authCommand hmac ac ctx jwtToken command args).1 := by
  have hnoTarget : ∀ name, GrantTarget.default = .group name ∨ GrantTarget.default = .user name →
      newline ∉ name := by
    rintro name (h | h) <;> cases h
  have hgroupTarget : ∀ {groupName : Str}, newline ∉ groupName → ∀ name,
      GrantTarget.group groupName = .group name ∨ GrantTarget.group groupName = .user name →
      newline ∉ name := by
    rintro groupName hg name (h | h) <;> cases h
    exact hg
  have huserTarget : ∀ {userId : Str}, newline ∉ userId → ∀ name,
      GrantTarget.user userId = .group name ∨ GrantTarget.user userId = .user name →
      newline ∉ name := by
    rintro userId hu name (h | h) <;> cases h
    exact hu
  have hregister : ∀ userId password rest, args = userId :: password :: rest →
      Storable (registerCommand hmac ac ctx userId password rest).1 := by
    rintro userId password rest rfl
    refine h.registerAccount hmac (hline userId (by simp)) ?_ hsalt ctx.io
    cases rest with
    | nil =>
        show newline ∉ (if ac.hasAccounts then str "user" else str "admin")
        split <;> decide
    | cons group rest => exact hline group (by simp)
  have hlogin : ∀ userId password, Storable (loginCommand hmac ac ctx userId password).1 := by
    intro userId password
    unfold loginCommand
    split
    · exact h
    · exact h
  have hdefault : ∀ databaseName permissionName rest success,
      args = databaseName :: permissionName :: rest →
      Storable (withPermission ac permissionName success fun permission =>
        grantDefault ac databaseName permission ctx.io).1 ∧
      Storable (withPermission ac permissionName success fun permission =>
        revokeDefault ac databaseName permission ctx.io).1 := by
    rintro databaseName permissionName rest success rfl
    refine ⟨storable_withPermission h _ _ fun permission => ?_,
      storable_withPermission h _ _ fun permission => ?_⟩
    · unfold grantDefault
      split
      · exact h
      · exact h.updateGrant (hne _ (by simp)) (hline _ (by simp)) hnoTarget _
    · exact storable_revokeGrant h (hne _ (by simp)) (hline _ (by simp)) hnoTarget _ _
  have hgroup : ∀ databaseName groupName permissionName rest success,
      args = databaseName :: groupName :: permissionName :: rest →
      Storable (withPermission ac permissionName success fun permission =>
        grantGroup ac databaseName groupName permission ctx.io).1 ∧
      Storable (withPermission ac permissionName success fun permission =>
        revokeGroup ac databaseName groupName permission ctx.io).1 := by
    rintro databaseName groupName permissionName rest success rfl
    have htarget := hgroupTarget (hline groupName (by simp))
    refine ⟨storable_withPermission h _ _ fun permission => ?_,
      storable_withPermission h _ _ fun permission => ?_⟩
    · unfold grantGroup
      split
      · exact h
      · exact h.updateGrant (hne _ (by simp)) (hline _ (by simp)) htarget _
    · exact storable_revokeGrant h (hne _ (by simp)) (hline _ (by simp)) htarget _ _
  have huser : ∀ databaseName userId permissionName rest success,
      args = databaseName :: userId :: permissionName :: rest →
      Storable (withPermission ac permissionName success fun permission =>
        grantUser ac databaseName userId permission ctx.io).1 ∧
      Storable (withPermission ac permissionName success fun permission =>
        revokeUser ac databaseName userId permission ctx.io).1 := by
    rintro databaseName userId permissionName rest success rfl
    have htarget := huserTarget (hline userId (by simp))
    refine ⟨storable_withPermission h _ _ fun permission => ?_,
      storable_withPermission h _ _ fun permission => ?_⟩
    · unfold grantUser
      split
      · exact h
      · exact h.updateGrant (hne _ (by simp)) (hline _ (by simp)) htarget _
    · exact storable_revokeGrant h (hne _ (by simp)) (hline _ (by simp)) htarget _ _
  -- the commands, one by one; what has too few arguments changes nothing
  unfold authCommand
  dsimp only
  refine storable_ite (fun _ => ?_) fun _ => storable_ite (fun _ => ?_) fun _ =>
    storable_ite (fun _ => ?_) fun _ => storable_ite (fun _ => ?_) fun _ =>
    storable_ite (fun _ => ?_) fun _ => storable_ite (fun _ => ?_) fun _ =>
    storable_ite (fun _ => ?_) fun _ => storable_ite (fun _ => ?_) fun _ =>
    storable_ite (fun _ => ?_) fun _ => storable_ite (fun _ => ?_) fun _ =>
    storable_ite (fun _ => h) fun _ => h
  · split
    · exact hregister _ _ _ rfl
    · exact h
  · split
    · exact hlogin _ _
    · exact h
  · split
    · exact storable_asAdmin h jwtToken (h.createGroup (hline _ (by simp)) ctx.io)
    · exact h
  · split
    · exact storable_asAdmin h jwtToken (h.addUserToGroup _ _ ctx.io)
    · exact h
  · split
    · exact storable_asAdmin h jwtToken (hdefault _ _ _ _ rfl).1
    · exact h
  · split
    · exact storable_asAdmin h jwtToken (hdefault _ _ _ _ rfl).2
    · exact h
  · split
    · exact storable_asAdmin h jwtToken (hgroup _ _ _ _ _ rfl).1
    · exact h
  · split
    · exact storable_asAdmin h jwtToken (hgroup _ _ _ _ _ rfl).2
    · exact h
  · split
    · exact storable_asAdmin h jwtToken (huser _ _ _ _ _ rfl).1
    · exact h
  · split
    · exact storable_asAdmin h jwtToken (huser _ _ _ _ _ rfl).2
    · exact h

end Commands

/-! ## §3. Reachable controllers. -/

/-- A controller built by AUTH commands, whatever becomes of their writes. -/
inductive AuthReachable (hmac : Hmac) : AccessController → Prop where
  | start (jwtSecret : Str) : AuthReachable hmac ⟨jwtSecret, Dict.empty, [], Dict.empty⟩
  | command {ac : AccessController} {ctx : AuthContext} {random : Randomness}
      {request : RequestEnvelope} {r : AccessController × Option ResponseEnvelope} :
      AuthReachable hmac ac → ctx.salt = newSalt random →
      parseAuthCommand hmac ac ctx request = some r → AuthReachable hmac r.1

/-- **Every controller the commands build can be stored.** -/
theorem AuthReachable.storable {hmac : Hmac} {ac : AccessController} (h : AuthReachable hmac ac) :
    Storable ac := by
  induction h with
  | start jwtSecret => exact storable_new jwtSecret
  | command hreach hsalt hparse ih =>
      obtain ⟨p, hp, rfl⟩ := Option.map_eq_some_iff.mp hparse
      refine storable_authCommand ih ?_ _ p.1 (commandOf_args_ne_nil hp) (commandOf_args_newline hp)
      rw [hsalt]
      exact newline_not_mem_newSalt _

/-- **A restart keeps accounts, groups, grants and decisions exactly when no
account is in a group whose name holds a comma.** -/
theorem rbac_reload_iff {hmac : Hmac} {ac : AccessController} (h : AuthReachable hmac ac) :
    Reloads ac ↔ CommaFree ac :=
  reloads_iff h.storable

/-! ## §4. Two accounts. -/

/-- The controller after requests without a token; each draws the salt `0`. -/
def afterRequests (hmac : Hmac) (ac : AccessController) : List Str → AccessController
  | [] => ac
  | payload :: rest =>
      match parseAuthCommand hmac ac ⟨0, newSalt (.fallback 0), .written⟩
          ⟨str "c", [], payload⟩ with
      | some r => afterRequests hmac r.1 rest
      | none => afterRequests hmac ac rest

theorem AuthReachable.afterRequests {hmac : Hmac} {ac : AccessController}
    (h : AuthReachable hmac ac) (payloads : List Str) :
    AuthReachable hmac (afterRequests hmac ac payloads) := by
  induction payloads generalizing ac with
  | nil => exact h
  | cons payload rest ih =>
      unfold Server.afterRequests
      split
      · rename_i r hr
        exact ih (.command h (show _ = newSalt (.fallback 0) from rfl) hr)
      · exact ih h

/-- HMAC-SHA256 of `0:pw` under the key `0`. -/
def saltedHmac : Hmac :=
  sampleHmac 0 0x6b000c9de798fbdd410aac6d89de9fdc256c09281f539b271f5136a56defd0b1

/-- The controller with `root`, an administrator, and `bob` in a group. -/
def withBob (register : String) : AccessController :=
  afterRequests saltedHmac emptyController [str "AUTH REGISTER root pw", str register]

theorem authReachable_withBob (register : String) : AuthReachable saltedHmac (withBob register) :=
  (AuthReachable.start (str "k")).afterRequests _

theorem rbac_reload_staff : Reloads (withBob "AUTH REGISTER bob pw staff=\\") :=
  (rbac_reload_iff (authReachable_withBob _)).mpr (by unfold CommaFree; decide +kernel)

/-- **A restart makes `bob` an administrator.** -/
theorem comma_in_group_makes_admin :
    let ac := withBob "AUTH REGISTER bob pw x,admin"
    AuthReachable saltedHmac ac ∧ isAdmin ac (str "bob") = false ∧
    (load emptyController (persistedFiles ac)).map (isAdmin · (str "bob")) = some true ∧
    ¬ Reloads ac := by
  have hreach := authReachable_withBob "AUTH REGISTER bob pw x,admin"
  refine ⟨hreach, by decide +kernel, by decide +kernel, ?_⟩
  intro hreload
  have hfree := (reloads_iff hreach.storable).mp hreload
  revert hfree
  unfold CommaFree
  decide +kernel

end CustomDbms.Server
