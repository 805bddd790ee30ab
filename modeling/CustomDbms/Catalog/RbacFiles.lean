/-
  CustomDbms.Catalog.RbacFiles
  ────────────────────────────
  **THE FILES OF THE ACCESS CONTROLLER** (`Persist` and `Load` of
  `src/catalog/rbac.cpp`: `accounts.tsv` and `rbac_grants.tsv`).

  Fields are escaped like the fields of the state files, but the groups of an
  account are a list inside a field: `JoinGroups` puts a comma between them and
  escapes none that a group holds, `SplitGroups` ends a group at every comma.
-/
import CustomDbms.Catalog.Tokens
import CustomDbms.Core.StateFiles

namespace CustomDbms.Catalog

open CustomDbms.Common CustomDbms.Core CustomDbms.Lib CustomDbms.Parser

/-! ## §1. `Persist`. -/

/-- The byte between two groups. -/
def comma : Byte := byte ','

/-- `JoinGroups`. -/
def joinGroups (groups : List Str) : Str := [comma].intercalate (groups.map escape)

/-- The header line of both files. -/
def rbacFormatLine : Str := lineOf [str "FORMAT", str "1"]

/-- The `ACCOUNT` line. -/
def accountLine (p : Str × AccountRecord) : Str :=
  lineOf [str "ACCOUNT", field "user_id" (escape p.1), field "salt" (escape p.2.salt),
    field "password_hash" (escape p.2.passwordHash), field "groups" (joinGroups p.2.groups)]

/-- The `GROUP` line. -/
def groupLine (group : Str) : Str := lineOf [str "GROUP", field "name" (escape group)]

/-- What `Persist` writes to `accounts.tsv`. -/
def accountsText (ac : AccessController) : Str :=
  rbacFormatLine ++ ac.accounts.entries.flatMap accountLine ++ ac.groups.flatMap groupLine

/-- A mask as the stream prints it. -/
def maskField (mask : BitVec 32) : Str := field "mask" (natToString mask.toNat)

/-- The lines of one database. -/
def grantLines (p : Str × DatabaseGrantRecord) : Str :=
  lineOf [str "DEFAULT", field "db" (escape p.1), maskField p.2.defaultPermissions]
    ++ p.2.groupPermissions.entries.flatMap (fun q => lineOf [str "GROUP_GRANT",
        field "db" (escape p.1), field "group" (escape q.1), maskField q.2])
    ++ p.2.userPermissions.entries.flatMap fun q => lineOf [str "USER_GRANT",
        field "db" (escape p.1), field "user" (escape q.1), maskField q.2]

/-- What `Persist` writes to `rbac_grants.tsv`. -/
def grantsText (ac : AccessController) : Str :=
  rbacFormatLine ++ ac.databaseGrants.entries.flatMap grantLines

/-! ## §2. `Load`. -/

/-- The end of a group in the loop of `SplitGroups`. -/
def pushGroup (current : Str) (groups : List Str) : List Str :=
  if current = [] then groups else unescape current :: groups

/-- The loop of `SplitGroups`, with its flag and the current group. -/
def splitGroupsFrom : Bool → Str → Str → List Str
  | _, current, [] => pushGroup current []
  | true, current, c :: cs => splitGroupsFrom false (current ++ [c]) cs
  | false, current, c :: cs =>
      if c = backslash then splitGroupsFrom true (current ++ [c]) cs
      else if c = comma then pushGroup current (splitGroupsFrom false [] cs)
      else splitGroupsFrom false (current ++ [c]) cs

/-- `SplitGroups`. -/
def splitGroups (raw : Str) : List Str := splitGroupsFrom false [] raw

/-- One part of an `ACCOUNT` line. -/
def accountField (record : AccountRecord) (part : Str) : AccountRecord :=
  match cut (byte '=') part with
  | none => record
  | some (key, value) =>
      if key = str "user_id" then { record with userId := unescape value }
      else if key = str "salt" then { record with salt := unescape value }
      else if key = str "password_hash" then { record with passwordHash := unescape value }
      else if key = str "groups" then { record with groups := splitGroups value }
      else record

/-- One line of `accounts.tsv`. -/
def loadAccountsLine (ac : AccessController) (line : Str) : AccessController :=
  if line = [] then ac
  else
    match splitByTab line with
    | [] => ac
    | tag :: parts =>
        if tag = str "FORMAT" then ac
        else if tag = str "ACCOUNT" then
          let record := parts.foldl accountField ⟨[], [], [], []⟩
          if record.userId = [] then ac
          else
            { ac with
              accounts := ac.accounts.emplace record.userId record
              groups := record.groups.foldl (fun groups group => insertGroup group groups)
                ac.groups }
        else if tag = str "GROUP" then
          match parts with
          | [] => ac
          | part :: _ =>
              match cut (byte '=') part with
              | none => ac
              | some (_, name) => { ac with groups := insertGroup (unescape name) ac.groups }
        else ac

/-- The variables of the loop over the parts of a line of grants. -/
structure GrantFields where
  databaseName : Str := []
  groupName : Str := []
  userId : Str := []
  mask : BitVec 32 := 0

/-- One part of a line of grants; `none` where `std::stoul` throws. -/
def grantField (fields : GrantFields) (part : Str) : Option GrantFields :=
  match cut (byte '=') part with
  | none => some fields
  | some (key, value) =>
      if key = str "db" then some { fields with databaseName := unescape value }
      else if key = str "group" then some { fields with groupName := unescape value }
      else if key = str "user" then some { fields with userId := unescape value }
      else if key = str "mask" then
        (stoull (unescape value)).map fun n => { fields with mask := BitVec.ofNat 32 n }
      else some fields

/-- What a line of grants sets in the record of its database. -/
def applyGrant (tag : Str) (fields : GrantFields) (record : DatabaseGrantRecord) :
    DatabaseGrantRecord :=
  if tag = str "DEFAULT" then { record with defaultPermissions := fields.mask }
  else if tag = str "GROUP_GRANT" then
    { record with groupPermissions := record.groupPermissions.assign fields.groupName fields.mask }
  else if tag = str "USER_GRANT" then
    { record with userPermissions := record.userPermissions.assign fields.userId fields.mask }
  else record

/-- One line of `rbac_grants.tsv`. -/
def loadGrantsLine (ac : AccessController) (line : Str) : Option AccessController :=
  if line = [] then some ac
  else
    match splitByTab line with
    | [] => some ac
    | tag :: parts =>
        if tag = str "FORMAT" then some ac
        else
          (parts.foldlM grantField {}).map fun fields =>
            if fields.databaseName = [] then ac
            else
              { ac with
                databaseGrants := atKey ac.databaseGrants fields.databaseName {}
                  (applyGrant tag fields) }

/-- The two files; `none` for one that cannot be opened. -/
structure RbacFiles where
  accounts : Option Str
  grants : Option Str

/-- `Load`; `none` where an exception leaves it. -/
def load (ac : AccessController) (files : RbacFiles) : Option AccessController :=
  let cleared : AccessController :=
    { ac with accounts := Dict.empty, groups := [], databaseGrants := Dict.empty }
  let withAccounts := match files.accounts with
    | none => cleared
    | some text => (lines text).foldl loadAccountsLine cleared
  match files.grants with
  | none => some withAccounts
  | some text => (lines text).foldlM loadGrantsLine withAccounts

/-- The files `Persist` leaves. -/
def persistedFiles (ac : AccessController) : RbacFiles :=
  ⟨some (accountsText ac), some (grantsText ac)⟩

/-! ## §3. `NewSalt`. -/

/-- What `NewSalt` draws: sixteen bytes, or a number where `RAND_bytes` fails. -/
inductive Randomness where
  | bytes (values : Fin 16 → Byte)
  | fallback (value : UInt64)

/-- `NewSalt`. -/
def newSalt : Randomness → Str
  | .bytes values => (List.ofFn values).flatMap fun b => hexPadded 2 b.val
  | .fallback value =>
      let digits := (hexPadded 16 value.toNat).dropWhile (fun c => decide (c = byte '0'))
      if digits = [] then str "0" else digits

/-! ## §4. Groups joined and split. -/

/-- A text `SplitGroups` reads through without ending the group. -/
def Uncut (s : Str) : Prop :=
  ∀ current rest,
    splitGroupsFrom false current (s ++ rest) = splitGroupsFrom false (current ++ s) rest

theorem uncut_escape {group : Str} (h : comma ∉ group) : Uncut (escape group) := by
  intro current rest
  induction group generalizing current with
  | nil => simp [escape]
  | cons c group ih =>
      have hgroup : comma ∉ group := fun hm => h (by simp [hm])
      have hc : c ≠ comma := by rintro rfl; exact h (by simp)
      rw [escape]
      split
      · -- the escaped byte is taken over whatever it is
        rw [List.cons_append, splitGroupsFrom, if_pos rfl, List.cons_append, splitGroupsFrom,
          ih hgroup]
        simp
      · rename_i hplain
        have hcb : c ≠ backslash := by rintro rfl; exact hplain rfl
        rw [List.cons_append, splitGroupsFrom, if_neg hcb, if_neg hc, ih hgroup]
        simp

theorem escape_ne_nil {s : Str} (h : s ≠ []) : escape s ≠ [] := by
  cases s with
  | nil => exact absurd rfl h
  | cons c s =>
      rw [escape]
      split
      · exact List.cons_ne_nil _ _
      · exact List.cons_ne_nil _ _

theorem pushGroup_escape {group : Str} (h : group ≠ []) (groups : List Str) :
    pushGroup (escape group) groups = group :: groups := by
  rw [pushGroup, if_neg (escape_ne_nil h), unescape_escape]

/-- **Groups without a comma come back.** -/
theorem splitGroups_joinGroups {groups : List Str} (hne : ∀ group ∈ groups, group ≠ [])
    (hcomma : ∀ group ∈ groups, comma ∉ group) : splitGroups (joinGroups groups) = groups := by
  unfold splitGroups joinGroups
  induction groups with
  | nil => rfl
  | cons group groups ih =>
      have hg := uncut_escape (hcomma group (by simp))
      have hrest := ih (fun g hm => hne g (by simp [hm])) (fun g hm => hcomma g (by simp [hm]))
      cases groups with
      | nil =>
          have := hg [] []
          rw [List.append_nil, List.nil_append] at this
          rw [List.map_cons, List.map_nil, List.intercalate_singleton, this, splitGroupsFrom,
            pushGroup_escape (hne group (by simp))]
      | cons next groups =>
          simp only [List.map_cons] at hrest ⊢
          rw [List.intercalate_cons_cons, List.append_assoc, hg, List.nil_append,
            List.singleton_append, splitGroupsFrom, if_neg (by decide), if_pos rfl, hrest,
            pushGroup_escape (hne group (by simp))]

/-- Every group read from the text is without a comma. -/
def SplitsAtCommas (text : Str) : Prop :=
  ∀ current, comma ∉ current → ∀ group ∈ splitGroupsFrom false current text, comma ∉ group

theorem splitsAtCommas_nil : SplitsAtCommas [] := by
  intro current hcurrent group hmem
  rw [splitGroupsFrom, pushGroup] at hmem
  split at hmem
  · cases hmem
  · rw [List.mem_singleton.mp hmem]
    exact fun hm => hcurrent (mem_of_mem_unescapeFrom hm)

theorem splitsAtCommas_comma {text : Str} (h : SplitsAtCommas text) :
    SplitsAtCommas (comma :: text) := by
  intro current hcurrent group hmem
  rw [splitGroupsFrom, if_neg (by decide), if_pos rfl, pushGroup] at hmem
  split at hmem
  · exact h [] (by simp) group hmem
  · rcases List.mem_cons.mp hmem with rfl | hmem
    · exact fun hm => hcurrent (mem_of_mem_unescapeFrom hm)
    · exact h [] (by simp) group hmem

/-- `EscapeField` puts no backslash in front of a comma. -/
theorem splitsAtCommas_escape (s : Str) {text : Str} (h : SplitsAtCommas text) :
    SplitsAtCommas (escape s ++ text) := by
  induction s with
  | nil => exact h
  | cons c s ih =>
      rw [escape]
      split
      · rename_i hc
        have hcomma : c ≠ comma := by rintro rfl; exact absurd hc (by decide)
        intro current hcurrent group hmem
        rw [List.cons_append, splitGroupsFrom, if_pos rfl, List.cons_append,
          splitGroupsFrom] at hmem
        refine ih _ ?_ group hmem
        have hb : comma ≠ backslash := by decide
        simp [hcurrent, hb, Ne.symm hcomma]
      · rename_i hc
        have hcb : c ≠ backslash := by rintro rfl; exact hc rfl
        by_cases hcomma : c = comma
        · rw [hcomma]
          exact splitsAtCommas_comma ih
        · intro current hcurrent group hmem
          rw [List.cons_append, splitGroupsFrom, if_neg hcb, if_neg hcomma] at hmem
          refine ih _ ?_ group hmem
          simp [hcurrent, Ne.symm hcomma]

theorem comma_not_mem_splitGroups (groups : List Str) :
    ∀ group ∈ splitGroups (joinGroups groups), comma ∉ group := by
  have key : SplitsAtCommas (joinGroups groups) := by
    unfold joinGroups
    induction groups with
    | nil => exact splitsAtCommas_nil
    | cons group groups ih =>
        cases groups with
        | nil =>
            rw [List.map_cons, List.map_nil, List.intercalate_singleton, ← List.append_nil
              (escape group)]
            exact splitsAtCommas_escape group splitsAtCommas_nil
        | cons next groups =>
            simp only [List.map_cons] at ih ⊢
            rw [List.intercalate_cons_cons, List.append_assoc, List.singleton_append]
            exact splitsAtCommas_escape group (splitsAtCommas_comma ih)
  exact key [] (by simp)

end CustomDbms.Catalog
