/-
  CustomDbms.Catalog.RbacRoundTrip
  ────────────────────────────────
  **WHAT A RESTART MAKES OF THE ACCESS CONTROLLER.**

  `Load` is followed over the lines `Persist` writes: each line takes the
  controller read so far one step further (`ReadsAccounts`, `ReadsGrants`).  An
  account comes back with its groups joined and split again, everything else
  as it was; so the round trip stands or falls with the commas.
-/
import CustomDbms.Catalog.RbacFiles

namespace CustomDbms.Catalog

open CustomDbms.Common CustomDbms.Core CustomDbms.Lib CustomDbms.Parser

/-! ## §1. Lines read. -/

theorem lines_lineOf {parts : List Str} (h : ∀ p ∈ parts, Part p) (rest : Str) :
    lines (lineOf parts ++ rest) = [tab].intercalate parts :: lines rest := by
  rw [lineOf, List.append_assoc, List.singleton_append,
    lines_append (newline_not_mem_intercalate fun p hp => (h p hp).oneLine)]

theorem intercalate_ne_nil {p : Str} (ps : List Str) (h : p ≠ []) :
    [tab].intercalate (p :: ps) ≠ [] := by
  intro hnil
  have := head?_intercalate ps h
  rw [hnil] at this
  exact h (List.head?_eq_none_iff.mp this.symm)

theorem cut_field {k : String} (v : Str) (hk : byte '=' ∉ str k) :
    cut (byte '=') (field k v) = some (str k, v) := by
  have htext : field k v = str k ++ byte '=' :: v := by
    simp [field, str]
  rw [htext, cut_append hk]

theorem part_joinGroups {groups : List Str} (h : ∀ group ∈ groups, newline ∉ group) :
    Part (joinGroups groups) := by
  unfold joinGroups
  induction groups with
  | nil => exact part_plain (by decide)
  | cons group groups ih =>
      have hg : Part (escape group) := part_escape (h group (by simp))
      have hrest := ih fun g hm => h g (by simp [hm])
      cases groups with
      | nil => rwa [List.map_cons, List.map_nil, List.intercalate_singleton]
      | cons next groups =>
          simp only [List.map_cons] at hrest ⊢
          rw [List.intercalate_cons_cons, List.append_assoc]
          exact hg.append ((part_plain (by decide)).append hrest)

/-- What the files can hold of an account. -/
structure AccountStorable (userId : Str) (record : AccountRecord) : Prop where
  keyed : record.userId = userId
  named : userId ≠ []
  userIdLine : newline ∉ userId
  saltLine : newline ∉ record.salt
  hashLine : newline ∉ record.passwordHash
  groupLines : ∀ group ∈ record.groups, newline ∉ group

/-- An account as it is read back. -/
def reread (record : AccountRecord) : AccountRecord :=
  { record with groups := splitGroups (joinGroups record.groups) }

/-- The controller after an account has been read. -/
def addAccount (ac : AccessController) (p : Str × AccountRecord) : AccessController :=
  { ac with
    accounts := ac.accounts.emplace p.1 (reread p.2)
    groups := (reread p.2).groups.foldl (fun groups group => insertGroup group groups) ac.groups }

/-- The controller after a group has been read. -/
def addGroup (ac : AccessController) (group : Str) : AccessController :=
  { ac with groups := insertGroup group ac.groups }

/-- The loop of `accounts.tsv` reads the text and comes from one controller to
another. -/
def ReadsAccounts (text : Str) (ac ac' : AccessController) : Prop :=
  ∀ rest, (lines (text ++ rest)).foldl loadAccountsLine ac = (lines rest).foldl loadAccountsLine ac'

theorem readsAccounts_line {p : Str} {ps : List Str} {ac ac' : AccessController}
    (h : ∀ q ∈ p :: ps, Part q)
    (hstep : loadAccountsLine ac ([tab].intercalate (p :: ps)) = ac') :
    ReadsAccounts (lineOf (p :: ps)) ac ac' := by
  intro rest
  rw [lines_lineOf h, List.foldl_cons, hstep]

theorem readsAccounts_flatMap {α : Type} {line : α → Str}
    {add : AccessController → α → AccessController} {l : List α}
    (h : ∀ a ∈ l, ∀ ac, ReadsAccounts (line a) ac (add ac a)) (ac : AccessController) :
    ReadsAccounts (l.flatMap line) ac (l.foldl add ac) := by
  induction l generalizing ac with
  | nil => exact fun _ => rfl
  | cons a l ih =>
      intro rest
      rw [List.flatMap_cons, List.append_assoc, h a (by simp),
        ih (fun b hb => h b (by simp [hb])) (add ac a) rest, List.foldl_cons]

theorem readsAccounts_format (ac : AccessController) : ReadsAccounts rbacFormatLine ac ac := by
  have hparts : ∀ q ∈ [str "FORMAT", str "1"], Part q := by
    intro q hq
    have hplain : ∀ q ∈ [str "FORMAT", str "1"], q.all plainByte = true := by decide
    exact part_plain (hplain q hq)
  refine readsAccounts_line hparts ?_
  rw [loadAccountsLine, if_neg (intercalate_ne_nil _ (by decide)), (line_of_parts hparts).2]
  rfl

theorem readsAccounts_account {p : Str × AccountRecord} (h : AccountStorable p.1 p.2)
    (ac : AccessController) : ReadsAccounts (accountLine p) ac (addAccount ac p) := by
  obtain ⟨userId, record⟩ := p
  obtain ⟨huser, hnamed, hu, hs, hh, hg⟩ := h
  dsimp only at huser hnamed hu hs hh hg
  have hparts : ∀ q ∈ [str "ACCOUNT", field "user_id" (escape userId),
      field "salt" (escape record.salt), field "password_hash" (escape record.passwordHash),
      field "groups" (joinGroups record.groups)], Part q := by
    simp only [List.forall_mem_cons, List.not_mem_nil, false_imp_iff, implies_true, and_true]
    exact ⟨part_plain (by decide), part_field (by decide) (part_escape hu),
      part_field (by decide) (part_escape hs), part_field (by decide) (part_escape hh),
      part_field (by decide) (part_joinGroups hg)⟩
  refine readsAccounts_line hparts ?_
  rw [loadAccountsLine, if_neg (intercalate_ne_nil _ (by decide)), (line_of_parts hparts).2]
  have hrecord : [field "user_id" (escape userId), field "salt" (escape record.salt),
      field "password_hash" (escape record.passwordHash),
      field "groups" (joinGroups record.groups)].foldl accountField ⟨[], [], [], []⟩
        = reread record := by
    have hkeys : byte '=' ∉ str "user_id" ∧ byte '=' ∉ str "salt" ∧
        byte '=' ∉ str "password_hash" ∧ byte '=' ∉ str "groups" := by decide
    simp only [List.foldl_cons, List.foldl_nil, accountField, cut_field _ hkeys.1,
      cut_field _ hkeys.2.1, cut_field _ hkeys.2.2.1, cut_field _ hkeys.2.2.2, unescape_escape]
    rw [reread, huser]
    rfl
  dsimp only
  rw [if_neg (by decide), if_pos rfl, hrecord, if_neg (by rw [reread, huser]; exact hnamed)]
  rw [addAccount, show (reread record).userId = userId from huser]

theorem readsAccounts_group {group : Str} (h : newline ∉ group) (ac : AccessController) :
    ReadsAccounts (groupLine group) ac (addGroup ac group) := by
  have hparts : ∀ q ∈ [str "GROUP", field "name" (escape group)], Part q := by
    simp only [List.forall_mem_cons, List.not_mem_nil, false_imp_iff, implies_true, and_true]
    exact ⟨part_plain (by decide), part_field (by decide) (part_escape h)⟩
  refine readsAccounts_line hparts ?_
  rw [loadAccountsLine, if_neg (intercalate_ne_nil _ (by decide)), (line_of_parts hparts).2]
  dsimp only
  rw [if_neg (by decide), if_neg (by decide), if_pos rfl, cut_field _ (by decide)]
  dsimp only
  rw [unescape_escape, addGroup]

/-! ## §2. Grants read. -/

/-- What the files can hold of the grants on a database. -/
structure GrantsStorable (databaseName : Str) (record : DatabaseGrantRecord) : Prop where
  named : databaseName ≠ []
  nameLine : newline ∉ databaseName
  groupLines : ∀ group ∈ record.groupPermissions.keys, newline ∉ group
  userLines : ∀ userId ∈ record.userPermissions.keys, newline ∉ userId

/-- The loop of `rbac_grants.tsv` reads the text and comes from one controller
to another. -/
def ReadsGrants (text : Str) (ac ac' : AccessController) : Prop :=
  ∀ rest, (lines (text ++ rest)).foldlM loadGrantsLine ac = (lines rest).foldlM loadGrantsLine ac'

theorem readsGrants_nil (ac : AccessController) : ReadsGrants [] ac ac := fun _ => rfl

theorem ReadsGrants.append {t t' : Str} {a b c : AccessController} (h : ReadsGrants t a b)
    (h' : ReadsGrants t' b c) : ReadsGrants (t ++ t') a c := by
  intro rest
  rw [List.append_assoc, h, h']

theorem readsGrants_line {p : Str} {ps : List Str} {ac ac' : AccessController}
    (h : ∀ q ∈ p :: ps, Part q)
    (hstep : loadGrantsLine ac ([tab].intercalate (p :: ps)) = some ac') :
    ReadsGrants (lineOf (p :: ps)) ac ac' := by
  intro rest
  rw [lines_lineOf h, List.foldlM_cons, hstep]
  rfl

theorem readsGrants_format (ac : AccessController) : ReadsGrants rbacFormatLine ac ac := by
  have hparts : ∀ q ∈ [str "FORMAT", str "1"], Part q := by
    intro q hq
    have hplain : ∀ q ∈ [str "FORMAT", str "1"], q.all plainByte = true := by decide
    exact part_plain (hplain q hq)
  refine readsGrants_line hparts ?_
  rw [loadGrantsLine, if_neg (intercalate_ne_nil _ (by decide)), (line_of_parts hparts).2]
  rfl

/-- A controller with one record of grants. -/
def AccessController.withGrants (ac : AccessController) (databaseName : Str)
    (record : DatabaseGrantRecord) : AccessController :=
  { ac with databaseGrants := ac.databaseGrants.emplace databaseName record }

theorem grantField_mask (fields : GrantFields) (mask : BitVec 32) :
    grantField fields (maskField mask) = some { fields with mask } := by
  have hlt : mask.toNat < 2 ^ 64 := by
    have := mask.isLt
    omega
  have hplain : unescape (natToString mask.toNat) = natToString mask.toNat := by
    have hescape : escape (natToString mask.toNat) = natToString mask.toNat := by
      obtain ⟨-, hdigits, -⟩ := natToString_digits mask.toNat
      have key : ∀ s : Str, (∀ c ∈ s, isDigit c = true) → escape s = s := by
        intro s hs
        induction s with
        | nil => rfl
        | cons c s ih =>
            have hc : needsEscape c = false := by
              have hall : ∀ b : Byte, isDigit b = true → needsEscape b = false := by
                grind [isDigit, needsEscape, newline, backslash, tab, byte]
              exact hall c (hs c (by simp))
            rw [escape, hc, ih fun d hd => hs d (by simp [hd])]
            rfl
      exact key _ hdigits
    rw [← hescape, unescape_escape, hescape]
  rw [grantField, maskField, cut_field _ (by decide)]
  dsimp only
  rw [if_neg (by decide), if_neg (by decide), if_neg (by decide), if_pos rfl, hplain,
    stoull_natToString hlt, Option.map_some, BitVec.ofNat_toNat, BitVec.setWidth_eq]

/-- **One line of grants** rewrites the record of its database. -/
theorem readsGrants_grant {tag : Str} {ps : List Str} {fields : GrantFields}
    (hparts : ∀ q ∈ tag :: ps, Part q) (htag : tag ≠ []) (hformat : tag ≠ str "FORMAT")
    (hfields : ps.foldlM grantField {} = some fields) (hname : fields.databaseName ≠ [])
    (ac : AccessController) :
    ReadsGrants (lineOf (tag :: ps)) ac
      { ac with
        databaseGrants := atKey ac.databaseGrants fields.databaseName {}
          (applyGrant tag fields) } := by
  refine readsGrants_line hparts ?_
  rw [loadGrantsLine, if_neg (intercalate_ne_nil _ htag), (line_of_parts hparts).2]
  dsimp only
  rw [if_neg hformat, hfields, Option.map_some, if_neg hname]

/-- The record read so far. -/
theorem atKey_emplace {d : Dict Str DatabaseGrantRecord} {databaseName : Str}
    {record : DatabaseGrantRecord} {f : DatabaseGrantRecord → DatabaseGrantRecord}
    (hfree : d.find? databaseName = none) :
    atKey (d.emplace databaseName record) databaseName {} f
      = d.emplace databaseName (f record) := by
  have hthere : (d.emplace databaseName record).find? databaseName = some record := by
    rw [Dict.find?_emplace hfree, if_pos rfl]
  rw [atKey, Dict.emplace_of_find? hthere, Dict.modify_emplace hfree]

theorem readsGrants_default {databaseName : Str} (hname : databaseName ≠ [])
    (hline : newline ∉ databaseName) (mask : BitVec 32) {ac : AccessController}
    (hfree : ac.databaseGrants.find? databaseName = none) :
    ReadsGrants (lineOf [str "DEFAULT", field "db" (escape databaseName), maskField mask]) ac
      (ac.withGrants databaseName { defaultPermissions := mask }) := by
  have hparts : ∀ q ∈ [str "DEFAULT", field "db" (escape databaseName), maskField mask],
      Part q := by
    simp only [List.forall_mem_cons, List.not_mem_nil, false_imp_iff, implies_true, and_true]
    exact ⟨part_plain (by decide), part_field (by decide) (part_escape hline),
      part_field (by decide) (part_natToString _)⟩
  have hfields : [field "db" (escape databaseName), maskField mask].foldlM grantField {}
      = some { databaseName, mask } := by
    rw [List.foldlM_cons, grantField, cut_field _ (by decide)]
    dsimp only
    rw [if_pos rfl, unescape_escape]
    show [maskField mask].foldlM grantField _ = _
    rw [List.foldlM_cons, grantField_mask]
    rfl
  have hread := readsGrants_grant hparts (by decide) (by decide) hfields hname ac
  have hrecord : atKey ac.databaseGrants databaseName {}
      (applyGrant (str "DEFAULT") { databaseName, mask })
        = ac.databaseGrants.emplace databaseName { defaultPermissions := mask } := by
    rw [atKey, Dict.modify_emplace hfree]
    rfl
  rw [AccessController.withGrants, ← hrecord]
  exact hread

/-- The `GROUP_GRANT` and `USER_GRANT` lines: two names and a mask. -/
theorem readsGrants_named {tag databaseName name : Str} {key : String} {fields : GrantFields}
    (mask : BitVec 32) (htag : (tag.all plainByte = true ∧ tag ≠ []) ∧ tag ≠ str "FORMAT")
    (hkey : (str key ++ str "=").all plainByte = true) (hname : databaseName ≠ [])
    (hdb : newline ∉ databaseName) (hline : newline ∉ name)
    (hfield : grantField { databaseName } (field key (escape name)) = some fields)
    (hsame : fields.databaseName = databaseName) {ac : AccessController}
    {record : DatabaseGrantRecord} (hfree : ac.databaseGrants.find? databaseName = none) :
    ReadsGrants (lineOf [tag, field "db" (escape databaseName), field key (escape name),
        maskField mask]) (ac.withGrants databaseName record)
      (ac.withGrants databaseName (applyGrant tag { fields with mask } record)) := by
  have hparts : ∀ q ∈ [tag, field "db" (escape databaseName), field key (escape name),
      maskField mask], Part q := by
    simp only [List.forall_mem_cons, List.not_mem_nil, false_imp_iff, implies_true, and_true]
    exact ⟨part_plain htag.1.1, part_field (by decide) (part_escape hdb),
      part_field hkey (part_escape hline), part_field (by decide) (part_natToString _)⟩
  have hfields : [field "db" (escape databaseName), field key (escape name),
      maskField mask].foldlM grantField {} = some { fields with mask } := by
    rw [List.foldlM_cons, grantField, cut_field _ (by decide)]
    dsimp only
    rw [if_pos rfl, unescape_escape]
    show [field key (escape name), maskField mask].foldlM grantField { databaseName } = _
    rw [List.foldlM_cons, hfield]
    show [maskField mask].foldlM grantField fields = _
    rw [List.foldlM_cons, grantField_mask]
    rfl
  subst hsame
  have hread := readsGrants_grant hparts htag.1.2 htag.2 hfields hname
    (ac.withGrants fields.databaseName record)
  simp only [AccessController.withGrants, atKey_emplace hfree] at hread ⊢
  exact hread

theorem readsGrants_groups {databaseName : Str} (hname : databaseName ≠ [])
    (hdb : newline ∉ databaseName) {ac : AccessController}
    (hfree : ac.databaseGrants.find? databaseName = none) {l : List (Str × BitVec 32)}
    (hl : ∀ q ∈ l, newline ∉ q.1) (record : DatabaseGrantRecord) :
    ReadsGrants (l.flatMap fun q => lineOf [str "GROUP_GRANT", field "db" (escape databaseName),
        field "group" (escape q.1), maskField q.2]) (ac.withGrants databaseName record)
      (ac.withGrants databaseName { record with
        groupPermissions := l.foldl (fun d q => d.assign q.1 q.2) record.groupPermissions }) := by
  induction l generalizing record with
  | nil => exact readsGrants_nil _
  | cons q l ih =>
      have hfield : grantField { databaseName } (field "group" (escape q.1))
          = some { databaseName, groupName := q.1 } := by
        rw [grantField, cut_field _ (by decide)]
        dsimp only
        rw [if_neg (by decide), if_pos rfl, unescape_escape]
      rw [List.flatMap_cons]
      exact (readsGrants_named q.2 (by decide) (by decide) hname hdb (hl q (by simp)) hfield rfl
        hfree).append (ih (fun r hr => hl r (by simp [hr])) _)

theorem readsGrants_users {databaseName : Str} (hname : databaseName ≠ [])
    (hdb : newline ∉ databaseName) {ac : AccessController}
    (hfree : ac.databaseGrants.find? databaseName = none) {l : List (Str × BitVec 32)}
    (hl : ∀ q ∈ l, newline ∉ q.1) (record : DatabaseGrantRecord) :
    ReadsGrants (l.flatMap fun q => lineOf [str "USER_GRANT", field "db" (escape databaseName),
        field "user" (escape q.1), maskField q.2]) (ac.withGrants databaseName record)
      (ac.withGrants databaseName { record with
        userPermissions := l.foldl (fun d q => d.assign q.1 q.2) record.userPermissions }) := by
  induction l generalizing record with
  | nil => exact readsGrants_nil _
  | cons q l ih =>
      have hfield : grantField { databaseName } (field "user" (escape q.1))
          = some { databaseName, userId := q.1 } := by
        rw [grantField, cut_field _ (by decide)]
        dsimp only
        rw [if_neg (by decide), if_neg (by decide), if_pos rfl, unescape_escape]
      rw [List.flatMap_cons]
      exact (readsGrants_named q.2 (by decide) (by decide) hname hdb (hl q (by simp)) hfield rfl
        hfree).append (ih (fun r hr => hl r (by simp [hr])) _)

/-- **The lines of one database** add its record. -/
theorem readsGrants_database {p : Str × DatabaseGrantRecord} (h : GrantsStorable p.1 p.2)
    {ac : AccessController} (hfree : ac.databaseGrants.find? p.1 = none) :
    ReadsGrants (grantLines p) ac (ac.withGrants p.1 p.2) := by
  have hgroups := readsGrants_groups h.named h.nameLine hfree
    (l := p.2.groupPermissions.entries) (fun q hq => h.groupLines q.1 (List.mem_map_of_mem hq))
    { defaultPermissions := p.2.defaultPermissions }
  have husers := readsGrants_users h.named h.nameLine hfree
    (l := p.2.userPermissions.entries) (fun q hq => h.userLines q.1 (List.mem_map_of_mem hq))
    { defaultPermissions := p.2.defaultPermissions, groupPermissions := p.2.groupPermissions }
  dsimp only at hgroups husers
  rw [Dict.foldl_assign_entries] at hgroups husers
  exact ((readsGrants_default h.named h.nameLine _ hfree).append hgroups).append husers

theorem readsGrants_databases {l : List (Str × DatabaseGrantRecord)}
    (hl : ∀ p ∈ l, GrantsStorable p.1 p.2) {ac : AccessController}
    (hfree : (ac.databaseGrants.keys ++ l.map Prod.fst).Nodup) :
    ReadsGrants (l.flatMap grantLines) ac
      { ac with databaseGrants := l.foldl (fun d p => d.emplace p.1 p.2) ac.databaseGrants } := by
  induction l generalizing ac with
  | nil => exact readsGrants_nil _
  | cons p l ih =>
      have hnone : ac.databaseGrants.find? p.1 = none := by
        rw [Dict.find?_eq_none_iff]
        intro hmem
        rw [List.map_cons, List.nodup_append] at hfree
        exact hfree.2.2 _ hmem _ (List.mem_cons_self ..) rfl
      rw [List.flatMap_cons]
      refine (readsGrants_database (hl p (by simp)) hnone).append ?_
      refine ih (fun q hq => hl q (by simp [hq])) ?_
      rw [AccessController.withGrants, Dict.keys_emplace hnone]
      simpa using hfree

/-! ## §3. The round trip. -/

/-- **What the two files can hold**: names of one line, an account under its
own name, its groups among the groups. -/
structure Storable (ac : AccessController) : Prop where
  accounts : ∀ p ∈ ac.accounts.entries, AccountStorable p.1 p.2
  members : ∀ p ∈ ac.accounts.entries, ∀ group ∈ p.2.groups, group ∈ ac.groups
  groups : ∀ group ∈ ac.groups, group ≠ [] ∧ newline ∉ group
  grants : ∀ p ∈ ac.databaseGrants.entries, GrantsStorable p.1 p.2

/-- The groups in the order in which `Load` meets them. -/
def rereadGroups (ac : AccessController) : List Str :=
  ac.groups.foldl (fun groups group => insertGroup group groups)
    (ac.accounts.entries.foldl (fun groups p =>
      (reread p.2).groups.foldl (fun groups group => insertGroup group groups) groups) [])

/-- The controller after `Persist` and `Load`. -/
def reloaded (ac : AccessController) : AccessController :=
  { ac with
    accounts := ac.accounts.mapVals fun _ record => reread record
    groups := rereadGroups ac }

theorem foldl_addAccount (l : List (Str × AccountRecord)) (ac : AccessController) :
    l.foldl addAccount ac = { ac with
      accounts := l.foldl (fun d p => d.emplace p.1 (reread p.2)) ac.accounts
      groups := l.foldl (fun groups p =>
        (reread p.2).groups.foldl (fun groups group => insertGroup group groups) groups)
          ac.groups } := by
  induction l generalizing ac with
  | nil => rfl
  | cons p l ih => rw [List.foldl_cons, ih]; rfl

theorem foldl_addGroup (l : List Str) (ac : AccessController) :
    l.foldl addGroup ac
      = { ac with groups := l.foldl (fun groups group => insertGroup group groups) ac.groups } := by
  induction l generalizing ac with
  | nil => rfl
  | cons group l ih => rw [List.foldl_cons, ih]; rfl

/-- **What a restart makes of a storable controller.** -/
theorem load_persistedFiles {ac : AccessController} (h : Storable ac) (restarted : AccessController) :
    load restarted (persistedFiles ac)
      = some { reloaded ac with jwtSecret := restarted.jwtSecret } := by
  have haccounts : ∀ cleared : AccessController, (lines (accountsText ac)).foldl loadAccountsLine
      cleared = ac.groups.foldl addGroup (ac.accounts.entries.foldl addAccount cleared) := by
    intro cleared
    have hformat := readsAccounts_format cleared
      (ac.accounts.entries.flatMap accountLine ++ ac.groups.flatMap groupLine)
    have hlines := readsAccounts_flatMap
      (fun p hp => readsAccounts_account (h.accounts p hp)) cleared (ac.groups.flatMap groupLine)
    have hgroups := readsAccounts_flatMap
      (fun group hg => readsAccounts_group (h.groups group hg).2)
      (ac.accounts.entries.foldl addAccount cleared) []
    rw [List.append_nil] at hgroups
    rw [accountsText, List.append_assoc, hformat, hlines, hgroups]
    rfl
  have hgrants : ∀ withAccounts : AccessController,
      withAccounts.databaseGrants = Dict.empty →
      (lines (grantsText ac)).foldlM loadGrantsLine withAccounts
        = some { withAccounts with databaseGrants := ac.databaseGrants } := by
    intro withAccounts hempty
    have hread := (readsGrants_format withAccounts).append (readsGrants_databases
      (l := ac.databaseGrants.entries) h.grants
      (by rw [hempty]; simpa [Dict.keys, Dict.empty] using ac.databaseGrants.nodup)) []
    rw [List.append_nil] at hread
    rw [grantsText, hread, hempty, Dict.foldl_emplace_entries]
    rfl
  have hmap : ac.accounts.entries.foldl (fun d p => d.emplace p.1 (reread p.2)) Dict.empty
      = ac.accounts.mapVals fun _ record => reread record := by
    have hfold := Dict.foldl_emplace_entries (ac.accounts.mapVals fun _ record => reread record)
    rw [Dict.mapVals, List.foldl_map] at hfold
    exact hfold
  rw [load, persistedFiles]
  dsimp only
  rw [haccounts, hgrants _ (by rw [foldl_addGroup, foldl_addAccount]), foldl_addGroup,
    foldl_addAccount]
  simp only [reloaded, rereadGroups, hmap]

theorem mem_foldl_insertGroup {g : Str} (l groups : List Str) :
    g ∈ l.foldl (fun groups group => insertGroup group groups) groups ↔ g ∈ groups ∨ g ∈ l := by
  induction l generalizing groups with
  | nil => simp
  | cons group l ih =>
      rw [List.foldl_cons, ih, mem_insertGroup, List.mem_cons]
      tauto

theorem mem_foldl_members {g : Str} (l : List (Str × AccountRecord)) (groups : List Str) :
    g ∈ l.foldl (fun groups p =>
        (reread p.2).groups.foldl (fun groups group => insertGroup group groups) groups) groups ↔
      g ∈ groups ∨ ∃ p ∈ l, g ∈ (reread p.2).groups := by
  induction l generalizing groups with
  | nil => simp
  | cons p l ih =>
      rw [List.foldl_cons, ih, mem_foldl_insertGroup]
      simp only [List.mem_cons, exists_eq_or_imp, or_assoc]

/-- The mask of a grant; `none` where no record holds one. -/
def grantMask (ac : AccessController) (databaseName : Str) (target : GrantTarget) :
    Option (BitVec 32) :=
  (ac.databaseGrants.find? databaseName).bind fun record =>
    match target with
    | .default => some record.defaultPermissions
    | .group groupName => record.groupPermissions.find? groupName
    | .user userId => record.userPermissions.find? userId

/-- The later controller has the accounts, groups and masks of the earlier one
and decides like it. -/
structure SameRights (ac ac' : AccessController) : Prop where
  accounts : ∀ userId, ac'.accounts.find? userId = ac.accounts.find? userId
  groups : ∀ group, group ∈ ac'.groups ↔ group ∈ ac.groups
  masks : ∀ databaseName target, grantMask ac' databaseName target = grantMask ac databaseName target
  admins : ∀ userId, isAdmin ac' userId = isAdmin ac userId
  authorized : ∀ userId databaseName permission,
    authorize ac' userId databaseName permission = authorize ac userId databaseName permission

/-- A restart brings back what the files were written from. -/
def Reloads (ac : AccessController) : Prop :=
  ∀ restarted, ∃ ac', load restarted (persistedFiles ac) = some ac' ∧ SameRights ac ac'

/-- No account is in a group whose name holds a comma. -/
def CommaFree (ac : AccessController) : Prop :=
  ∀ p ∈ ac.accounts.entries, ∀ group ∈ p.2.groups, comma ∉ group

theorem mapVals_reread {ac : AccessController} (h : Storable ac) (hcomma : CommaFree ac) :
    (ac.accounts.mapVals fun _ record => reread record) = ac.accounts := by
  refine Dict.ext_find? Dict.keys_mapVals fun userId => ?_
  rw [Dict.find?_mapVals]
  cases hfind : ac.accounts.find? userId with
  | none => rfl
  | some record =>
      have hmem := Dict.mem_entries_iff.mpr hfind
      have hsplit := splitGroups_joinGroups
        (fun group hg => (h.groups group (h.members _ hmem group hg)).1)
        (fun group hg => hcomma _ hmem group hg)
      rw [Option.map_some, reread, hsplit]

/-- **A storable controller comes back from its files exactly when no account
is in a group with a comma.** -/
theorem reloads_iff {ac : AccessController} (h : Storable ac) : Reloads ac ↔ CommaFree ac := by
  constructor
  · intro hreload p hp group hg hcomma
    obtain ⟨ac', hload, hsame⟩ := hreload ac
    rw [load_persistedFiles h] at hload
    cases hload
    have hfind := Dict.mem_entries_iff.mp (show (p.1, p.2) ∈ _ from hp)
    have haccount := hsame.accounts p.1
    -- what was read back has no comma in any group
    rw [reloaded, Dict.find?_mapVals, hfind, Option.map_some] at haccount
    have hgroups : splitGroups (joinGroups p.2.groups) = p.2.groups :=
      congrArg AccountRecord.groups (Option.some.inj haccount)
    exact comma_not_mem_splitGroups p.2.groups group (hgroups.symm ▸ hg) hcomma
  · intro hcomma restarted
    refine ⟨_, load_persistedFiles h restarted, ?_⟩
    have haccounts := mapVals_reread h hcomma
    have hgroups : ∀ group, group ∈ rereadGroups ac ↔ group ∈ ac.groups := by
      intro group
      rw [rereadGroups, mem_foldl_insertGroup, mem_foldl_members]
      constructor
      · rintro ((hnil | ⟨p, hp, hg⟩) | hg)
        · cases hnil
        · have hsplit := splitGroups_joinGroups
            (fun group hg => (h.groups group (h.members p hp group hg)).1) (hcomma p hp)
          rw [reread, hsplit] at hg
          exact h.members p hp group hg
        · exact hg
      · exact .inr
    simp only [reloaded, haccounts]
    exact ⟨fun _ => rfl, hgroups, fun _ _ => rfl, fun _ => rfl, fun _ _ _ => rfl⟩

/-! ## §4. Operations. -/

theorem storable_new (jwtSecret : Str) : Storable ⟨jwtSecret, Dict.empty, [], Dict.empty⟩ := by
  refine ⟨?_, ?_, ?_, ?_⟩
  · intro p hp
    cases hp
  · intro p hp
    cases hp
  · intro group hg
    cases hg
  · intro p hp
    cases hp

theorem newline_not_mem_hashPassword (hmac : Hmac) (salt password : Str) :
    newline ∉ hashPassword hmac salt password := by
  unfold hashPassword
  split
  · simp
  · intro hm
    obtain ⟨b, -, hb⟩ := List.mem_flatMap.mp hm
    exact not_mem_hexPadded (by decide) _ _ hb

theorem newline_not_mem_newSalt (random : Randomness) : newline ∉ newSalt random := by
  cases random with
  | bytes values =>
      intro hm
      obtain ⟨b, -, hb⟩ := List.mem_flatMap.mp hm
      exact not_mem_hexPadded (by decide) _ _ hb
  | fallback value =>
      unfold newSalt
      dsimp only
      split
      · decide
      · intro hm
        exact not_mem_hexPadded (by decide) _ _ ((List.dropWhile_sublist _).subset hm)

section Operations

variable {ac : AccessController}

theorem Storable.registerAccount (h : Storable ac) (hmac : Hmac)
    {userId password group salt : Str} (huser : newline ∉ userId) (hgroup : newline ∉ group)
    (hsalt : newline ∉ salt) (io : PersistOutcome) :
    Storable (Catalog.registerAccount hmac ac userId password group salt io).1 := by
  unfold Catalog.registerAccount
  split
  · exact h
  · rename_i hnamed
    split
    · exact h
    · dsimp only
      generalize heff : (if group = [] then if ac.accounts.keys = [] then str "admin" else str "user"
        else group) = effective
      have hline : effective ≠ [] ∧ newline ∉ effective := by
        rw [← heff]
        split_ifs with hempty
        · decide
        · decide
        · exact ⟨hempty, hgroup⟩
      refine ⟨?_, ?_, ?_, h.grants⟩
      · refine Dict.forall_emplace h.accounts ⟨rfl, ?_, huser, hsalt, ?_, ?_⟩
        · exact fun hnil => hnamed (.inl hnil)
        · exact newline_not_mem_hashPassword hmac salt password
        · intro g hg
          rw [List.mem_singleton.mp hg]
          exact hline.2
      · intro p hp g hg
        rcases Dict.mem_emplace hp with hp | rfl
        · exact mem_insertGroup.mpr (.inr (h.members p hp g hg))
        · exact mem_insertGroup.mpr (.inl (List.mem_singleton.mp hg))
      · intro g hg
        rcases mem_insertGroup.mp hg with rfl | hg
        · exact hline
        · exact h.groups g hg

theorem Storable.createGroup (h : Storable ac) {groupName : Str} (hline : newline ∉ groupName)
    (io : PersistOutcome) : Storable (Catalog.createGroup ac groupName io).1 := by
  unfold Catalog.createGroup
  split
  · exact h
  · rename_i hnamed
    refine ⟨h.accounts, ?_, ?_, h.grants⟩
    · exact fun p hp g hg => mem_insertGroup.mpr (.inr (h.members p hp g hg))
    · intro g hg
      rcases mem_insertGroup.mp hg with rfl | hg
      · exact ⟨hnamed, hline⟩
      · exact h.groups g hg

theorem Storable.addUserToGroup (h : Storable ac) (userId groupName : Str) (io : PersistOutcome) :
    Storable (Catalog.addUserToGroup ac userId groupName io).1 := by
  unfold Catalog.addUserToGroup
  split
  · exact h
  · split
    · exact h
    · rename_i hgroup
      have hmem : groupName ∈ ac.groups := not_not.mp hgroup
      refine ⟨?_, ?_, h.groups, h.grants⟩
      · refine Dict.forall_modify h.accounts fun record hrecord => ?_
        have hold := h.accounts _ hrecord
        refine ⟨hold.keyed, hold.named, hold.userIdLine, hold.saltLine, hold.hashLine, ?_⟩
        intro g hg
        rcases mem_insertGroup.mp hg with rfl | hg
        · exact (h.groups g hmem).2
        · exact hold.groupLines g hg
      · refine Dict.forall_modify
          (P := fun _ (record : AccountRecord) => ∀ g ∈ record.groups, g ∈ ac.groups)
          h.members fun record hrecord g hg => ?_
        rcases mem_insertGroup.mp hg with rfl | hg
        · exact hmem
        · exact h.members _ hrecord g hg

/-- A key of `map[key]` is an old one or the one named. -/
theorem mem_keys_atKey {β : Type} {d : Dict Str β} {key x : Str} {default : β} {f : β → β}
    (h : x ∈ (atKey d key default f).keys) : x ∈ d.keys ∨ x = key := by
  rw [atKey, Dict.keys_modify, Dict.emplace] at h
  split at h
  · exact .inl h
  · simpa [Dict.keys] using h

theorem Storable.updateGrant (h : Storable ac) {databaseName : Str} {target : GrantTarget}
    (hname : databaseName ≠ []) (hline : newline ∉ databaseName)
    (htarget : ∀ name, target = .group name ∨ target = .user name → newline ∉ name)
    (f : BitVec 32 → BitVec 32) : Storable (ac.updateGrant databaseName target f) := by
  have hupdate : ∀ record, GrantsStorable databaseName record →
      GrantsStorable databaseName (record.update f target) := by
    intro record hrecord
    cases target with
    | default => exact ⟨hname, hline, hrecord.groupLines, hrecord.userLines⟩
    | group groupName =>
        refine ⟨hname, hline, fun g hg => ?_, hrecord.userLines⟩
        rcases mem_keys_atKey hg with hg | rfl
        · exact hrecord.groupLines g hg
        · exact htarget g (.inl rfl)
    | user userId =>
        refine ⟨hname, hline, hrecord.groupLines, fun u hu => ?_⟩
        rcases mem_keys_atKey hu with hu | rfl
        · exact hrecord.userLines u hu
        · exact htarget u (.inr rfl)
  have hfresh : GrantsStorable databaseName {} := by
    refine ⟨hname, hline, ?_, ?_⟩
    · intro group hg
      cases hg
    · intro userId hu
      cases hu
  refine ⟨h.accounts, h.members, h.groups, ?_⟩
  refine Dict.forall_modify (Dict.forall_emplace h.grants hfresh) fun record hrecord => ?_
  refine hupdate record ?_
  rcases Dict.mem_emplace hrecord with hold | hnew
  · exact h.grants _ hold
  · cases hnew
    exact hfresh

end Operations

end CustomDbms.Catalog
