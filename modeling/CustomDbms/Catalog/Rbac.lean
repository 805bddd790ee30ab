/-
  CustomDbms.Catalog.Rbac
  ───────────────────────
  **ACCOUNTS, GROUPS, GRANTS AND TOKENS** (`src/catalog/rbac.{hpp,cpp}`).

  Time, salts, HMAC-SHA256 and the way a write of the two files ends come from
  outside.  Every operation that reaches `Persist` has changed the members
  before it, so a failed write leaves the change in memory.
-/
import CustomDbms.Catalog.Base64Url
import CustomDbms.Lib.Dict
import CustomDbms.Parser.Lexer

namespace CustomDbms.Catalog

open CustomDbms.Common CustomDbms.Lib CustomDbms.Parser

/-! ## §1. State. -/

/-- `Permission`. -/
inductive Permission where
  | read | write | createTable | dropTable | dropDatabase
  deriving Repr, DecidableEq

/-- `PermissionMask`. -/
def permissionMask : Permission → BitVec 32
  | .read => 1#32 <<< 0
  | .write => 1#32 <<< 1
  | .createTable => 1#32 <<< 2
  | .dropTable => 1#32 <<< 3
  | .dropDatabase => 1#32 <<< 4

/-- `HasPermissionInMask`. -/
def hasPermissionInMask (mask : BitVec 32) (permission : Permission) : Bool :=
  mask &&& permissionMask permission ≠ 0

/-- `ParsePermissionName`. -/
def parsePermissionName (permissionName : Str) : Option Permission :=
  let upper := toUpper permissionName
  if upper = str "READ" then some .read
  else if upper = str "WRITE" then some .write
  else if upper = str "CREATE_TABLE" then some .createTable
  else if upper = str "DROP_TABLE" then some .dropTable
  else if upper = str "DROP_DATABASE" then some .dropDatabase
  else none

/-- `AccountRecord`. -/
structure AccountRecord where
  userId : Str
  salt : Str
  passwordHash : Str
  groups : List Str
  deriving DecidableEq

/-- `DatabaseGrantRecord`. -/
structure DatabaseGrantRecord where
  defaultPermissions : BitVec 32 := 0
  groupPermissions : Dict Str (BitVec 32) := Dict.empty
  userPermissions : Dict Str (BitVec 32) := Dict.empty

/-- `AccessController`. -/
structure AccessController where
  jwtSecret : Str
  accounts : Dict Str AccountRecord
  groups : List Str
  databaseGrants : Dict Str DatabaseGrantRecord

/-- `HMAC(EVP_sha256(), key, message)`; `none` for a null pointer. -/
abbrev Hmac := Str → Str → Option Str

/-- HMAC-SHA256 gives 32 bytes for every key and message. -/
def Hmac.NeverFails (hmac : Hmac) : Prop :=
  ∀ key message, ∃ digest, hmac key message = some digest ∧ digest.length = 32

/-- How `Persist` ends: both files written, one of them not opened, or an
exception of `std::filesystem`. -/
inductive PersistOutcome where
  | written | accountsNotOpened | grantsNotOpened | thrown
  deriving Repr, DecidableEq

/-- What an operation tells its caller: true, false with a message, or an
exception. -/
inductive Outcome where
  | done
  | refused (errorMessage : Str)
  | thrown
  deriving DecidableEq

/-- `Persist`. -/
def persist : PersistOutcome → Outcome
  | .written => .done
  | .accountsNotOpened => .refused (str "failed to persist accounts")
  | .grantsNotOpened => .refused (str "failed to persist grants")
  | .thrown => .thrown

/-- `set.insert`. -/
def insertGroup (group : Str) (groups : List Str) : List Str :=
  if group ∈ groups then groups else groups ++ [group]

theorem mem_insertGroup {group g : Str} {groups : List Str} :
    g ∈ insertGroup group groups ↔ g = group ∨ g ∈ groups := by
  unfold insertGroup
  split
  · rename_i hmem
    constructor
    · exact .inr
    · rintro (rfl | h)
      · exact hmem
      · exact h
  · simp [or_comm]

/-- `map[key]`, then an assignment to it: a missing key is there first with
its default. -/
def atKey {β : Type} (d : Dict Str β) (key : Str) (default : β) (f : β → β) : Dict Str β :=
  (d.emplace key default).modify key f

/-! ## §2. Passwords. -/

/-- `HashPassword`. -/
def hashPassword (hmac : Hmac) (salt password : Str) : Str :=
  match hmac salt (salt ++ str ":" ++ password) with
  | none => []
  | some digest => digest.flatMap fun b => hexPadded 2 b.val

/-! ## §3. Accounts, groups and grants. -/

/-- `RegisterAccount`, with the salt it draws. -/
def registerAccount (hmac : Hmac) (ac : AccessController) (userId password group salt : Str)
    (io : PersistOutcome) : AccessController × Outcome :=
  if userId = [] ∨ password = [] then (ac, .refused (str "user and password are required"))
  else if ac.accounts.contains userId then (ac, .refused (str "user already exists"))
  else
    let effectiveGroup :=
      if group = [] then (if ac.accounts.keys = [] then str "admin" else str "user") else group
    let record : AccountRecord :=
      ⟨userId, salt, hashPassword hmac salt password, [effectiveGroup]⟩
    ({ ac with
        groups := insertGroup effectiveGroup ac.groups
        accounts := ac.accounts.emplace userId record }, persist io)

/-- `CreateGroup`. -/
def createGroup (ac : AccessController) (groupName : Str) (io : PersistOutcome) :
    AccessController × Outcome :=
  if groupName = [] then (ac, .refused (str "group is required"))
  else ({ ac with groups := insertGroup groupName ac.groups }, persist io)

/-- `AddUserToGroup`. -/
def addUserToGroup (ac : AccessController) (userId groupName : Str) (io : PersistOutcome) :
    AccessController × Outcome :=
  if !ac.accounts.contains userId then (ac, .refused (str "user not found"))
  else if groupName ∉ ac.groups then (ac, .refused (str "group not found"))
  else
    ({ ac with accounts := ac.accounts.modify userId fun record =>
        { record with groups := insertGroup groupName record.groups } }, persist io)

/-- `mask |= PermissionMask(permission)`. -/
def granted (permission : Permission) (mask : BitVec 32) : BitVec 32 :=
  mask ||| permissionMask permission

/-- `mask &= ~PermissionMask(permission)`. -/
def revoked (permission : Permission) (mask : BitVec 32) : BitVec 32 :=
  mask &&& ~~~ permissionMask permission

/-- A mask that a record of grants holds. -/
inductive GrantTarget where
  | default
  | group (groupName : Str)
  | user (userId : Str)
  deriving DecidableEq

/-- One mask of a record rewritten. -/
def DatabaseGrantRecord.update (record : DatabaseGrantRecord) (f : BitVec 32 → BitVec 32) :
    GrantTarget → DatabaseGrantRecord
  | .default => { record with defaultPermissions := f record.defaultPermissions }
  | .group groupName =>
      { record with groupPermissions := atKey record.groupPermissions groupName 0 f }
  | .user userId =>
      { record with userPermissions := atKey record.userPermissions userId 0 f }

/-- `database_grants_[database_name]`, one mask of it rewritten. -/
def AccessController.updateGrant (ac : AccessController) (databaseName : Str)
    (target : GrantTarget) (f : BitVec 32 → BitVec 32) : AccessController :=
  { ac with
    databaseGrants :=
      atKey ac.databaseGrants databaseName {} fun record => record.update f target }

/-- `GrantDefault`. -/
def grantDefault (ac : AccessController) (databaseName : Str) (permission : Permission)
    (io : PersistOutcome) : AccessController × Outcome :=
  if databaseName = [] then (ac, .refused (str "database is required"))
  else (ac.updateGrant databaseName .default (granted permission), persist io)

/-- `GrantGroup`. -/
def grantGroup (ac : AccessController) (databaseName groupName : Str) (permission : Permission)
    (io : PersistOutcome) : AccessController × Outcome :=
  if groupName ∉ ac.groups then (ac, .refused (str "group not found"))
  else (ac.updateGrant databaseName (.group groupName) (granted permission), persist io)

/-- `GrantUser`. -/
def grantUser (ac : AccessController) (databaseName userId : Str) (permission : Permission)
    (io : PersistOutcome) : AccessController × Outcome :=
  if !ac.accounts.contains userId then (ac, .refused (str "user not found"))
  else (ac.updateGrant databaseName (.user userId) (granted permission), persist io)

/-- The three revocations: they ask only for a record of the database. -/
def revokeGrant (ac : AccessController) (databaseName : Str) (target : GrantTarget)
    (permission : Permission) (io : PersistOutcome) : AccessController × Outcome :=
  if !ac.databaseGrants.contains databaseName then
    (ac, .refused (str "database grant record not found"))
  else (ac.updateGrant databaseName target (revoked permission), persist io)

/-- `RevokeDefault`. -/
def revokeDefault (ac : AccessController) (databaseName : Str) (permission : Permission)
    (io : PersistOutcome) : AccessController × Outcome :=
  revokeGrant ac databaseName .default permission io

/-- `RevokeGroup`. -/
def revokeGroup (ac : AccessController) (databaseName groupName : Str) (permission : Permission)
    (io : PersistOutcome) : AccessController × Outcome :=
  revokeGrant ac databaseName (.group groupName) permission io

/-- `RevokeUser`. -/
def revokeUser (ac : AccessController) (databaseName userId : Str) (permission : Permission)
    (io : PersistOutcome) : AccessController × Outcome :=
  revokeGrant ac databaseName (.user userId) permission io

/-- `HasAccounts`. -/
def AccessController.hasAccounts (ac : AccessController) : Bool := ac.accounts.keys ≠ []

/-- `IsAdmin`. -/
def isAdmin (ac : AccessController) (userId : Str) : Bool :=
  match ac.accounts.find? userId with
  | none => false
  | some record => str "admin" ∈ record.groups

/-- `Authorize`. -/
def authorize (ac : AccessController) (userId databaseName : Str) (permission : Permission) :
    Bool :=
  match ac.accounts.find? userId with
  | none => false
  | some record =>
      if isAdmin ac userId then true
      else
        match ac.databaseGrants.find? databaseName with
        | none => false
        | some grants =>
            hasPermissionInMask grants.defaultPermissions permission ||
            (record.groups.any fun group =>
              match grants.groupPermissions.find? group with
              | none => false
              | some mask => hasPermissionInMask mask permission) ||
            match grants.userPermissions.find? userId with
            | none => false
            | some mask => hasPermissionInMask mask permission

/-- `UserGroups`. -/
def userGroups (ac : AccessController) (userId : Str) : List Str :=
  match ac.accounts.find? userId with
  | none => []
  | some record => record.groups

/-! ## §4. Claims. -/

/-- `text.find(marker)`, with the text after what it found. -/
def findAfter (marker : Str) : Str → Option Str
  | [] => stripStart marker []
  | c :: rest =>
      match stripStart marker (c :: rest) with
      | some tail => some tail
      | none => findAfter marker rest

/-- `text.find(c)`: the text before it and the text after it. -/
def cut (c : Byte) : Str → Option (Str × Str)
  | [] => none
  | d :: rest =>
      if d = c then some ([], rest) else (cut c rest).map fun p => (d :: p.1, p.2)

/-- `ExtractStringClaim`. -/
def extractStringClaim (json key : Str) : Option Str :=
  match findAfter (str "\"" ++ key ++ str "\":\"") json with
  | none => none
  | some rest => (cut (byte '"') rest).map Prod.fst

/-- A byte `ExtractNumericClaim` takes for a number. -/
def isNumberByte (c : Byte) : Bool := isDigit c || c = byte '-'

/-- `ExtractNumericClaim`. -/
def extractNumericClaim (json key : Str) : Option Int64 :=
  match findAfter (str "\"" ++ key ++ str "\":") json with
  | none => none
  | some rest =>
      let digits := (rest.dropWhile isSpace).takeWhile isNumberByte
      if digits = [] then none else (stoll digits).map Prod.fst

/-! ## §5. Tokens. -/

/-- `kJwtHeaderJson`. -/
def kJwtHeaderJson : Str := str "\x7b\"alg\":\"HS256\",\"typ\":\"JWT\"\x7d"

/-- `SignTokenPayload`. -/
def signTokenPayload (hmac : Hmac) (ac : AccessController) (payload : Str) : Str :=
  match hmac ac.jwtSecret payload with
  | none => []
  | some digest => base64UrlEncode digest

/-- The claims of a token. -/
def payloadJson (userId : Str) (expiresUnix : Int64) : Str :=
  str "\x7b\"sub\":\"" ++ userId ++ str "\",\"exp\":" ++ intToString expiresUnix.toInt ++ str "\x7d"

/-- `IssueToken`. -/
def issueToken (hmac : Hmac) (ac : AccessController) (userId : Str) (expiresUnix : Int64) : Str :=
  let signingInput :=
    base64UrlEncode kJwtHeaderJson ++ str "." ++ base64UrlEncode (payloadJson userId expiresUnix)
  signingInput ++ str "." ++ signTokenPayload hmac ac signingInput

/-- `LoginAndIssueToken`: a token, or the error message. -/
def loginAndIssueToken (hmac : Hmac) (ac : AccessController) (now : Int64)
    (userId password : Str) : Except Str Str :=
  match ac.accounts.find? userId with
  | none => .error (str "user not found")
  | some record =>
      if hashPassword hmac record.salt password ≠ record.passwordHash then
        .error (str "invalid credentials")
      else .ok (issueToken hmac ac userId (now + 3600))

/-- The account a payload names, once its signature has been accepted. -/
def acceptClaims (ac : AccessController) (now : Int64) (json : Str) : Option Str :=
  match extractStringClaim json (str "sub"), extractNumericClaim json (str "exp") with
  | some userId, some expiresUnix =>
      if expiresUnix < now then none
      else if ac.accounts.contains userId then some userId
      else none
  | _, _ => none

/-- `ValidateTokenAndGetUser`. -/
def validateTokenAndGetUser (hmac : Hmac) (ac : AccessController) (now : Int64) (token : Str) :
    Option Str :=
  match cut (byte '.') token with
  | none => none
  | some (header, rest) =>
      match cut (byte '.') rest with
      | none => none
      | some (payload, signature) =>
          if byte '.' ∈ signature then none
          else if header = [] ∨ payload = [] ∨ signature = [] then none
          else
            match base64UrlDecode header, base64UrlDecode payload with
            | some headerJson, some json =>
                if headerJson ≠ kJwtHeaderJson then none
                else if signTokenPayload hmac ac (header ++ str "." ++ payload) = signature then
                  acceptClaims ac now json
                else none
            | _, _ => none

end CustomDbms.Catalog
