/-
  CustomDbms.Server.AuthCommands
  ──────────────────────────────
  **THE AUTH COMMANDS** (`ParseAuthCommand` of `src/server/entrypoint.cpp`).

  An answer of `none` is an exception of `Persist` that leaves the handler.
-/
import CustomDbms.Catalog.Tokens
import CustomDbms.Common.ErrorContract
import CustomDbms.Network.Protocol

namespace CustomDbms.Server

open CustomDbms.Common CustomDbms.Lib CustomDbms.Parser CustomDbms.Catalog CustomDbms.Network

/-! ## §1. Words of a payload. -/

/-- The loop `input >> token`, with the token it reads. -/
def splitWhitespaceFrom : Str → Str → List Str
  | current, [] => if current = [] then [] else [current]
  | current, c :: rest =>
      if isSpace c then
        if current = [] then splitWhitespaceFrom [] rest
        else current :: splitWhitespaceFrom [] rest
      else splitWhitespaceFrom (current ++ [c]) rest

/-- `SplitWhitespace`. -/
def splitWhitespace (value : Str) : List Str := splitWhitespaceFrom [] value

/-- The command word and the arguments of a payload of one family of commands. -/
def commandOf (family : Str) (payload : Str) : Option (Str × List Str) :=
  match splitWhitespace payload with
  | word :: command :: args => if toUpper word = family then some (toUpper command, args) else none
  | _ => none

/-! ## §2. Answers. -/

/-- What one request takes from its moment: the time, a fresh salt and the end
of its write. -/
structure AuthContext where
  now : Int64
  salt : Str
  io : PersistOutcome

/-- A refusal in the server's own words. -/
def refusal (status : Int32) (code : ErrorCode) (message : Str) : ResponseEnvelope :=
  ⟨status, contractText code message⟩

/-- The answer to an operation of the controller. -/
def answerOutcome (success : Str) : Outcome → Option ResponseEnvelope
  | .done => some ⟨200, success⟩
  | .refused errorMessage => some (refusal 400 .validationError errorMessage)
  | .thrown => none

/-- The state an operation leaves, with the answer. -/
def answerOperation (success : Str) (r : AccessController × Outcome) :
    AccessController × Option ResponseEnvelope :=
  (r.1, answerOutcome success r.2)

/-- `require_admin`: the refusal, where it returns false. -/
def requireAdmin (hmac : Hmac) (ac : AccessController) (now : Int64) (jwtToken : Str) :
    Option ResponseEnvelope :=
  if !ac.hasAccounts then some (refusal 403 .authorizationError (str "admin required"))
  else
    match validateTokenAndGetUser hmac ac now jwtToken with
    | none => some (refusal 401 .authorizationError (str "invalid or expired jwt token"))
    | some userId =>
        if isAdmin ac userId then none
        else some (refusal 403 .authorizationError (str "admin required"))

/-- A command for administrators. -/
def asAdmin (hmac : Hmac) (ac : AccessController) (ctx : AuthContext) (jwtToken : Str)
    (command : AccessController × Option ResponseEnvelope) :
    AccessController × Option ResponseEnvelope :=
  match requireAdmin hmac ac ctx.now jwtToken with
  | some response => (ac, some response)
  | none => command

/-- A command that names a permission. -/
def withPermission (ac : AccessController) (permissionName success : Str)
    (operation : Permission → AccessController × Outcome) :
    AccessController × Option ResponseEnvelope :=
  match parsePermissionName permissionName with
  | none => (ac, some (refusal 400 .validationError (str "invalid permission")))
  | some permission => answerOperation success (operation permission)

/-! ## §3. Commands. -/

/-- `REGISTER`: the group is the caller's to choose. -/
def registerCommand (hmac : Hmac) (ac : AccessController) (ctx : AuthContext)
    (userId password : Str) (rest : List Str) : AccessController × Option ResponseEnvelope :=
  let group := rest.head?.getD (if ac.hasAccounts then str "user" else str "admin")
  answerOperation (str "registered")
    (registerAccount hmac ac userId password group ctx.salt ctx.io)

/-- `LOGIN`. -/
def loginCommand (hmac : Hmac) (ac : AccessController) (ctx : AuthContext)
    (userId password : Str) : AccessController × Option ResponseEnvelope :=
  match loginAndIssueToken hmac ac ctx.now userId password with
  | .ok token => (ac, some ⟨200, str "token=" ++ token⟩)
  | .error errorMessage => (ac, some (refusal 401 .authorizationError errorMessage))

/-- `WHOAMI`. -/
def whoAmICommand (hmac : Hmac) (ac : AccessController) (ctx : AuthContext) (jwtToken : Str) :
    ResponseEnvelope :=
  if !ac.hasAccounts then ⟨200, str "anonymous"⟩
  else
    match validateTokenAndGetUser hmac ac ctx.now jwtToken with
    | none => refusal 401 .authorizationError (str "invalid or expired jwt token")
    | some userId =>
        ⟨200, str "user=" ++ userId ++ str " groups="
          ++ (str ",").intercalate (userGroups ac userId)⟩

/-- The branches of `ParseAuthCommand`. -/
def authCommand (hmac : Hmac) (ac : AccessController) (ctx : AuthContext) (jwtToken command : Str)
    (args : List Str) : AccessController × Option ResponseEnvelope :=
  let invalid := (ac, some (refusal 400 .validationError (str "invalid AUTH command")))
  let asAdmin := asAdmin hmac ac ctx jwtToken
  if command = str "REGISTER" then
    match args with
    | userId :: password :: rest => registerCommand hmac ac ctx userId password rest
    | _ => invalid
  else if command = str "LOGIN" then
    match args with
    | userId :: password :: _ => loginCommand hmac ac ctx userId password
    | _ => invalid
  else if command = str "CREATE_GROUP" then
    match args with
    | groupName :: _ =>
        asAdmin (answerOperation (str "group created") (createGroup ac groupName ctx.io))
    | _ => invalid
  else if command = str "ADD_USER_GROUP" then
    match args with
    | userId :: groupName :: _ =>
        asAdmin (answerOperation (str "user added to group")
          (addUserToGroup ac userId groupName ctx.io))
    | _ => invalid
  else if command = str "GRANT_DEFAULT" then
    match args with
    | databaseName :: permissionName :: _ =>
        asAdmin (withPermission ac permissionName (str "default grant updated") fun permission =>
          grantDefault ac databaseName permission ctx.io)
    | _ => invalid
  else if command = str "REVOKE_DEFAULT" then
    match args with
    | databaseName :: permissionName :: _ =>
        asAdmin (withPermission ac permissionName (str "default grant updated") fun permission =>
          revokeDefault ac databaseName permission ctx.io)
    | _ => invalid
  else if command = str "GRANT_GROUP" then
    match args with
    | databaseName :: groupName :: permissionName :: _ =>
        asAdmin (withPermission ac permissionName (str "group grant updated") fun permission =>
          grantGroup ac databaseName groupName permission ctx.io)
    | _ => invalid
  else if command = str "REVOKE_GROUP" then
    match args with
    | databaseName :: groupName :: permissionName :: _ =>
        asAdmin (withPermission ac permissionName (str "group grant updated") fun permission =>
          revokeGroup ac databaseName groupName permission ctx.io)
    | _ => invalid
  else if command = str "GRANT_USER" then
    match args with
    | databaseName :: userId :: permissionName :: _ =>
        asAdmin (withPermission ac permissionName (str "user grant updated") fun permission =>
          grantUser ac databaseName userId permission ctx.io)
    | _ => invalid
  else if command = str "REVOKE_USER" then
    match args with
    | databaseName :: userId :: permissionName :: _ =>
        asAdmin (withPermission ac permissionName (str "user grant updated") fun permission =>
          revokeUser ac databaseName userId permission ctx.io)
    | _ => invalid
  else if command = str "WHOAMI" then (ac, some (whoAmICommand hmac ac ctx jwtToken))
  else invalid

/-- `ParseAuthCommand`; `none` where it returns false. -/
def parseAuthCommand (hmac : Hmac) (ac : AccessController) (ctx : AuthContext)
    (request : RequestEnvelope) : Option (AccessController × Option ResponseEnvelope) :=
  (commandOf (str "AUTH") request.payload).map fun p =>
    authCommand hmac ac ctx request.jwtToken p.1 p.2

end CustomDbms.Server
