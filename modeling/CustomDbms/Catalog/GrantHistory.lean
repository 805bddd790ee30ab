/-
  CustomDbms.Catalog.GrantHistory
  ───────────────────────────────
  **AUTHORIZE DECIDES THE GRANTED RELATION.**

  The controller keeps bit masks in nested maps, which both grants and
  revocations create on demand.  A history of operations says the same without
  them: a permission is held where the last operation on it was a grant.

    • `mask_updateGrant`     — an operation changes one mask and no other;
    • `hasPermissionInMask_granted`, `_revoked` — and one bit of it;
    • `Represents.run`       — so a step keeps the agreement of controller and
      history;
    • `authorize_iff_granted` — which is what `Authorize` reads.
-/
import CustomDbms.Catalog.Tokens

namespace CustomDbms.Catalog

open CustomDbms.Common CustomDbms.Lib

/-! ## §1. Masks. -/

/-- The bit of a permission. -/
def Permission.bit : Permission → Nat
  | .read => 0
  | .write => 1
  | .createTable => 2
  | .dropTable => 3
  | .dropDatabase => 4

theorem Permission.bit_inj {p q : Permission} : p.bit = q.bit ↔ p = q := by
  cases p <;> cases q <;> decide

theorem Permission.bit_lt (p : Permission) : p.bit < 32 := by
  cases p <;> decide

theorem permissionMask_eq (p : Permission) : permissionMask p = BitVec.twoPow 32 p.bit := by
  cases p <;> decide

theorem hasPermissionInMask_eq (mask : BitVec 32) (p : Permission) :
    hasPermissionInMask mask p = mask.getLsbD p.bit := by
  unfold hasPermissionInMask
  rw [permissionMask_eq, BitVec.and_twoPow]
  cases hbit : mask.getLsbD p.bit with
  | false => simp
  | true =>
      have hne : BitVec.twoPow 32 p.bit ≠ 0 := by cases p <;> decide
      simpa using hne

theorem hasPermissionInMask_zero (p : Permission) : hasPermissionInMask 0#32 p = false := by
  simp [hasPermissionInMask_eq]

/-- **A grant sets the bit of its permission and no other.** -/
theorem hasPermissionInMask_granted (mask : BitVec 32) (p q : Permission) :
    hasPermissionInMask (granted p mask) q = (decide (q = p) || hasPermissionInMask mask q) := by
  rw [hasPermissionInMask_eq, hasPermissionInMask_eq, granted, permissionMask_eq,
    BitVec.getLsbD_or, BitVec.getLsbD_twoPow, Bool.or_comm]
  simp [p.bit_lt, Permission.bit_inj, eq_comm]

/-- **A revocation clears it and no other.** -/
theorem hasPermissionInMask_revoked (mask : BitVec 32) (p q : Permission) :
    hasPermissionInMask (revoked p mask) q = (!decide (q = p) && hasPermissionInMask mask q) := by
  rw [hasPermissionInMask_eq, hasPermissionInMask_eq, revoked, permissionMask_eq,
    BitVec.getLsbD_and, BitVec.getLsbD_not, BitVec.getLsbD_twoPow, Bool.and_comm]
  simp [p.bit_lt, q.bit_lt, Permission.bit_inj, eq_comm]

theorem find?_atKey {β : Type} (d : Dict Str β) (key x : Str) (default : β) (f : β → β) :
    (atKey d key default f).find? x
      = if x = key then some (f ((d.find? key).getD default)) else d.find? x :=
  Dict.find?_modify_emplace d key x default f

/-- The mask of a target, 0 where there is none. -/
def DatabaseGrantRecord.mask (record : DatabaseGrantRecord) : GrantTarget → BitVec 32
  | .default => record.defaultPermissions
  | .group groupName => (record.groupPermissions.find? groupName).getD 0
  | .user userId => (record.userPermissions.find? userId).getD 0

/-- The mask of a target in a database, 0 where there is none. -/
def AccessController.mask (ac : AccessController) (databaseName : Str) (target : GrantTarget) :
    BitVec 32 :=
  ((ac.databaseGrants.find? databaseName).getD {}).mask target

theorem DatabaseGrantRecord.mask_update (record : DatabaseGrantRecord) (f : BitVec 32 → BitVec 32)
    (target t : GrantTarget) :
    (record.update f target).mask t = if t = target then f (record.mask target) else record.mask t := by
  cases target with
  | default =>
      cases t with
      | default => rfl
      | group g => rfl
      | user u => rfl
  | group g =>
      cases t with
      | default => rfl
      | user u => rfl
      | group h =>
          show ((atKey record.groupPermissions g 0 f).find? h).getD 0 = _
          rw [find?_atKey]
          by_cases hgh : h = g
          · simp [hgh, mask]
          · simp [hgh, mask]
  | user u =>
      cases t with
      | default => rfl
      | group g => rfl
      | user v =>
          show ((atKey record.userPermissions u 0 f).find? v).getD 0 = _
          rw [find?_atKey]
          by_cases huv : v = u
          · simp [huv, mask]
          · simp [huv, mask]

/-- **One mask changes and no other.** -/
theorem AccessController.mask_updateGrant (ac : AccessController) (d e : Str)
    (target t : GrantTarget) (f : BitVec 32 → BitVec 32) :
    (ac.updateGrant d target f).mask e t
      = if e = d ∧ t = target then f (ac.mask d target) else ac.mask e t := by
  unfold AccessController.mask
  show (((atKey ac.databaseGrants d {} fun record => record.update f target).find? e).getD {}).mask t
    = _
  rw [find?_atKey]
  by_cases hed : e = d
  · rw [if_pos hed, Option.getD_some, DatabaseGrantRecord.mask_update]
    simp [hed]
  · rw [if_neg hed, if_neg fun h => hed h.1]

/-- **`Authorize` by masks.** -/
theorem authorize_iff_mask (ac : AccessController) (userId databaseName : Str) (p : Permission) :
    authorize ac userId databaseName p = true ↔
      ∃ record, ac.accounts.find? userId = some record ∧
        (str "admin" ∈ record.groups ∨
          hasPermissionInMask (ac.mask databaseName .default) p = true ∨
          (∃ g ∈ record.groups, hasPermissionInMask (ac.mask databaseName (.group g)) p = true) ∨
          hasPermissionInMask (ac.mask databaseName (.user userId)) p = true) := by
  unfold authorize isAdmin AccessController.mask
  cases haccount : ac.accounts.find? userId with
  | none => simp
  | some record =>
      cases hgrants : ac.databaseGrants.find? databaseName with
      | none => simp [DatabaseGrantRecord.mask, hasPermissionInMask_zero]
      | some grants =>
          simp only [Bool.if_true_left, Bool.or_eq_true, decide_eq_true_eq, List.any_eq_true,
            Option.some.injEq, exists_eq_left', Option.getD_some, or_assoc,
            DatabaseGrantRecord.mask]
          refine or_congr_right (or_congr_right (or_congr ?_ ?_))
          · refine exists_congr fun g => and_congr_right fun _ => ?_
            cases grants.groupPermissions.find? g with
            | none => simp [hasPermissionInMask_zero]
            | some mask => rfl
          · cases grants.userPermissions.find? userId with
            | none => simp [hasPermissionInMask_zero]
            | some mask => rfl

/-! ## §2. Histories. -/

/-- What a grant or a revocation is about. -/
structure GrantChange where
  databaseName : Str
  target : GrantTarget
  permission : Permission
  isGrant : Bool

/-- The grants and revocations among the operations. -/
def Operation.grantChange : Operation → Option GrantChange
  | .grantDefault d p => some ⟨d, .default, p, true⟩
  | .revokeDefault d p => some ⟨d, .default, p, false⟩
  | .grantGroup d g p => some ⟨d, .group g, p, true⟩
  | .revokeGroup d g p => some ⟨d, .group g, p, false⟩
  | .grantUser d u p => some ⟨d, .user u, p, true⟩
  | .revokeUser d u p => some ⟨d, .user u, p, false⟩
  | _ => none

/-- An operation on a permission of a target in a database: true for a grant. -/
def Operation.decides (d : Str) (target : GrantTarget) (p : Permission) (op : Operation) :
    Option Bool :=
  op.grantChange.bind fun c =>
    if c.databaseName = d ∧ c.target = target ∧ c.permission = p then some c.isGrant else none

/-- **The last operation on the permission was a grant.** -/
def LastGrants (history : List Operation) (d : Str) (target : GrantTarget) (p : Permission) :
    Prop :=
  (history.filterMap (Operation.decides d target p)).getLast? = some true

/-- A `RegisterAccount`. -/
def Operation.registers : Operation → Bool
  | .registerAccount .. => true
  | _ => false

/-- An account of this name was registered. -/
def Registered (history : List Operation) (userId : Str) : Prop :=
  ∃ password group salt, Operation.registerAccount userId password group salt ∈ history

/-- The group of a new account after a history: the first account of all is an
admin unless it asks for another group. -/
def groupAfter (history : List Operation) (group : Str) : Str :=
  if group = [] then (if history.any Operation.registers then str "user" else str "admin")
  else group

/-- The account was registered into the group or added to it later. -/
def InGroup (history : List Operation) (userId groupName : Str) : Prop :=
  Operation.addUserToGroup userId groupName ∈ history ∨
    ∃ before after password group salt,
      history = before ++ Operation.registerAccount userId password group salt :: after ∧
      groupName = groupAfter before group

section Histories

variable {history : List Operation} {op : Operation} {d : Str} {target : GrantTarget}
variable {p : Permission} {userId groupName : Str}

theorem lastGrants_append : LastGrants (history ++ [op]) d target p ↔
    op.decides d target p = some true ∨
      (op.decides d target p = none ∧ LastGrants history d target p) := by
  unfold LastGrants
  rw [List.filterMap_append]
  cases hop : op.decides d target p with
  | none => simp [hop]
  | some b => simp [hop]

theorem registered_append : Registered (history ++ [op]) userId ↔
    Registered history userId ∨
      ∃ password group salt, op = .registerAccount userId password group salt := by
  unfold Registered
  simp only [List.mem_append, List.mem_singleton]
  constructor
  · rintro ⟨password, group, salt, h | h⟩
    · exact Or.inl ⟨password, group, salt, h⟩
    · exact Or.inr ⟨password, group, salt, h.symm⟩
  · rintro (⟨password, group, salt, h⟩ | ⟨password, group, salt, h⟩)
    · exact ⟨password, group, salt, Or.inl h⟩
    · exact ⟨password, group, salt, Or.inr h.symm⟩

theorem inGroup_append : InGroup (history ++ [op]) userId groupName ↔
    InGroup history userId groupName ∨ op = .addUserToGroup userId groupName ∨
      ∃ password group salt, op = .registerAccount userId password group salt ∧
        groupName = groupAfter history group := by
  unfold InGroup
  constructor
  · rintro (h | ⟨before, after, password, group, salt, h, hgroup⟩)
    · rcases List.mem_append.mp h with h | h
      · exact Or.inl (Or.inl h)
      · exact Or.inr (Or.inl (List.mem_singleton.mp h).symm)
    · rcases List.eq_nil_or_concat after with rfl | ⟨after, last, rfl⟩
      · obtain ⟨rfl, hop⟩ := List.append_inj' h rfl
        exact Or.inr (Or.inr ⟨password, group, salt, List.singleton_inj.mp hop, hgroup⟩)
      · rw [List.concat_eq_append, ← List.cons_append, ← List.append_assoc] at h
        obtain ⟨hfront, -⟩ := List.append_inj' h rfl
        exact Or.inl (Or.inr ⟨before, after, password, group, salt, hfront, hgroup⟩)
  · rintro ((h | ⟨before, after, password, group, salt, h, hgroup⟩) | h | ⟨password, group, salt, h,
      hgroup⟩)
    · exact Or.inl (List.mem_append_left _ h)
    · refine Or.inr ⟨before, after ++ [op], password, group, salt, ?_, hgroup⟩
      rw [h, List.append_assoc, List.cons_append]
    · exact Or.inl (List.mem_append_right _ (List.mem_singleton.mpr h.symm))
    · exact Or.inr ⟨history, [], password, group, salt, by rw [h], hgroup⟩

end Histories

/-! ## §3. Controller and history. -/

/-- A controller with no account, no group and no grant. -/
def freshController (jwtSecret : Str) : AccessController := ⟨jwtSecret, Dict.empty, [], Dict.empty⟩

/-- Every call tells its caller that it is done. -/
def Succeeds (hmac : Hmac) (ac : AccessController) : List (Operation × PersistOutcome) → Prop
  | [] => True
  | (op, io) :: rest =>
      (op.run hmac ac io).2 = .done ∧ Succeeds hmac (op.run hmac ac io).1 rest

/-- **Controller and history agree.** -/
structure Represents (history : List Operation) (ac : AccessController) : Prop where
  accounts : ∀ u, ac.accounts.contains u = true ↔ Registered history u
  first : ac.accounts.keys = [] ↔ history.any Operation.registers = false
  members : ∀ u g, InGroup history u g → Registered history u
  groups : ∀ u record, ac.accounts.find? u = some record →
    ∀ g, g ∈ record.groups ↔ InGroup history u g
  grants : ∀ d target p,
    hasPermissionInMask (ac.mask d target) p = true ↔ LastGrants history d target p

/-- What a change does to its mask. -/
def GrantChange.onMask (c : GrantChange) : BitVec 32 → BitVec 32 :=
  if c.isGrant then granted c.permission else revoked c.permission

/-- **What a successful operation does.** -/
inductive Operation.Effect (ac : AccessController) : Operation → AccessController → Prop where
  | grant {op : Operation} {c : GrantChange} (h : op.grantChange = some c) :
      Effect ac op (ac.updateGrant c.databaseName c.target c.onMask)
  | register (userId password group salt : Str) (record : AccountRecord)
      (hnew : ac.accounts.find? userId = none)
      (hgroups : record.groups = [if group = [] then
        (if ac.accounts.keys = [] then str "admin" else str "user") else group]) (gs : List Str) :
      Effect ac (.registerAccount userId password group salt)
        { ac with groups := gs, accounts := ac.accounts.emplace userId record }
  | createGroup (groupName : Str) (gs : List Str) :
      Effect ac (.createGroup groupName) { ac with groups := gs }
  | addUser (userId groupName : Str) (hthere : ac.accounts.contains userId = true) :
      Effect ac (.addUserToGroup userId groupName)
        { ac with accounts := ac.accounts.modify userId fun record =>
            { record with groups := insertGroup groupName record.groups } }

theorem revokeGrant_done {ac : AccessController} {d : Str} {target : GrantTarget} {p : Permission}
    {io : PersistOutcome} (h : (revokeGrant ac d target p io).2 = .done) :
    (revokeGrant ac d target p io).1 = ac.updateGrant d target (revoked p) := by
  unfold revokeGrant at h ⊢
  split
  · rename_i hnone
    rw [if_pos hnone] at h
    cases h
  · rfl

/-- **A successful call has its effect.** -/
theorem Operation.effect_of_done {hmac : Hmac} {ac : AccessController} {op : Operation}
    {io : PersistOutcome} (h : (op.run hmac ac io).2 = .done) :
    Operation.Effect ac op (op.run hmac ac io).1 := by
  cases op with
  | registerAccount userId password group salt =>
      unfold Operation.run Catalog.registerAccount at h ⊢
      dsimp only at h ⊢
      split at h
      · cases h
      · rename_i hargs
        rw [if_neg hargs]
        split at h
        · cases h
        · rename_i hthere
          rw [if_neg hthere]
          have hnew : ac.accounts.find? userId = none := by
            simpa [Dict.contains] using hthere
          exact .register userId password group salt _ hnew rfl _
  | createGroup groupName =>
      unfold Operation.run Catalog.createGroup at h ⊢
      dsimp only at h ⊢
      split at h
      · cases h
      · rename_i hname
        rw [if_neg hname]
        exact .createGroup groupName _
  | addUserToGroup userId groupName =>
      unfold Operation.run Catalog.addUserToGroup at h ⊢
      dsimp only at h ⊢
      split at h
      · cases h
      · rename_i hthere
        rw [if_neg hthere]
        split at h
        · cases h
        · rename_i hgroup
          rw [if_neg hgroup]
          exact .addUser userId groupName (by simpa using hthere)
  | grantDefault d p =>
      unfold Operation.run Catalog.grantDefault at h ⊢
      dsimp only at h ⊢
      split at h
      · cases h
      · rename_i hname
        rw [if_neg hname]
        exact .grant (c := ⟨d, .default, p, true⟩) rfl
  | grantGroup d g p =>
      unfold Operation.run Catalog.grantGroup at h ⊢
      dsimp only at h ⊢
      split at h
      · cases h
      · rename_i hgroup
        rw [if_neg hgroup]
        exact .grant (c := ⟨d, .group g, p, true⟩) rfl
  | grantUser d u p =>
      unfold Operation.run Catalog.grantUser at h ⊢
      dsimp only at h ⊢
      split at h
      · cases h
      · rename_i hthere
        rw [if_neg hthere]
        exact .grant (c := ⟨d, .user u, p, true⟩) rfl
  | revokeDefault d p =>
      have heq : (Operation.run hmac ac io (.revokeDefault d p)).1
          = ac.updateGrant d .default (revoked p) := revokeGrant_done h
      rw [heq]
      exact .grant (c := ⟨d, .default, p, false⟩) rfl
  | revokeGroup d g p =>
      have heq : (Operation.run hmac ac io (.revokeGroup d g p)).1
          = ac.updateGrant d (.group g) (revoked p) := revokeGrant_done h
      rw [heq]
      exact .grant (c := ⟨d, .group g, p, false⟩) rfl
  | revokeUser d u p =>
      have heq : (Operation.run hmac ac io (.revokeUser d u p)).1
          = ac.updateGrant d (.user u) (revoked p) := revokeGrant_done h
      rw [heq]
      exact .grant (c := ⟨d, .user u, p, false⟩) rfl

theorem GrantChange.hasPermissionInMask_onMask (c : GrantChange) (mask : BitVec 32)
    (q : Permission) : hasPermissionInMask (c.onMask mask) q
      = if q = c.permission then c.isGrant else hasPermissionInMask mask q := by
  unfold GrantChange.onMask
  by_cases hq : q = c.permission
  · cases hgrant : c.isGrant with
    | true => simp [hasPermissionInMask_granted, hq]
    | false => simp [hasPermissionInMask_revoked, hq]
  · cases hgrant : c.isGrant with
    | true => simp [hasPermissionInMask_granted, hq]
    | false => simp [hasPermissionInMask_revoked, hq]

/-- An operation that is neither a registration nor an addition leaves the
members of the groups. -/
structure Operation.LeavesMembers (op : Operation) : Prop where
  registers : op.registers = false
  adds : ∀ u g, op ≠ .addUserToGroup u g

theorem Operation.leavesMembers_of_grant {op : Operation} {c : GrantChange}
    (h : op.grantChange = some c) : op.LeavesMembers := by
  constructor
  · cases op with
    | registerAccount => cases h
    | _ => rfl
  · rintro u g rfl
    cases h

section Steps

variable {history : List Operation} {ac : AccessController} {op : Operation}

theorem Operation.LeavesMembers.registered_iff (h : op.LeavesMembers) (u : Str) :
    Registered (history ++ [op]) u ↔ Registered history u := by
  rw [registered_append]
  refine or_iff_left ?_
  rintro ⟨password, group, salt, rfl⟩
  cases h.registers

theorem Operation.LeavesMembers.inGroup_iff (h : op.LeavesMembers) (u g : Str) :
    InGroup (history ++ [op]) u g ↔ InGroup history u g := by
  rw [inGroup_append]
  refine or_iff_left ?_
  rintro (hadd | ⟨password, group, salt, rfl, -⟩)
  · exact h.adds u g hadd
  · cases h.registers

/-- The fields about accounts after such an operation. -/
theorem Represents.of_leavesMembers (h : Represents history ac) {ac' : AccessController}
    (hop : op.LeavesMembers) (haccounts : ac'.accounts = ac.accounts)
    (hgrants : ∀ d target p, hasPermissionInMask (ac'.mask d target) p = true ↔
      LastGrants (history ++ [op]) d target p) : Represents (history ++ [op]) ac' where
  accounts := by
    intro u
    rw [haccounts, h.accounts, hop.registered_iff]
  first := by
    rw [haccounts, h.first]
    simp [hop.registers]
  members := by
    intro u g hg
    rw [hop.registered_iff]
    exact h.members u g ((hop.inGroup_iff u g).mp hg)
  groups := by
    intro u record hrecord g
    rw [haccounts] at hrecord
    rw [h.groups u record hrecord, hop.inGroup_iff]
  grants := hgrants

theorem Represents.grant (h : Represents history ac) {c : GrantChange}
    (hc : op.grantChange = some c) :
    Represents (history ++ [op]) (ac.updateGrant c.databaseName c.target c.onMask) := by
  refine h.of_leavesMembers (Operation.leavesMembers_of_grant hc) rfl fun d target p => ?_
  rw [lastGrants_append, AccessController.mask_updateGrant, ← h.grants, Operation.decides, hc,
    Option.bind_some]
  by_cases hat : d = c.databaseName ∧ target = c.target
  · obtain ⟨rfl, rfl⟩ := hat
    rw [if_pos ⟨rfl, rfl⟩, c.hasPermissionInMask_onMask]
    by_cases hp : p = c.permission
    · simp [hp]
    · simp [hp, Ne.symm hp]
  · have hother : ¬ (c.databaseName = d ∧ c.target = target ∧ c.permission = p) :=
      fun hsame => hat ⟨hsame.1.symm, hsame.2.1.symm⟩
    rw [if_neg hat, if_neg hother]
    simp

/-- No operation on accounts or groups changes a grant. -/
theorem lastGrants_append_of_none (hnone : op.grantChange = none) (d : Str) (target : GrantTarget)
    (p : Permission) : LastGrants (history ++ [op]) d target p ↔ LastGrants history d target p := by
  rw [lastGrants_append, Operation.decides, hnone]
  simp

theorem Represents.createGroup (h : Represents history ac) (groupName : Str) (gs : List Str) :
    Represents (history ++ [.createGroup groupName]) { ac with groups := gs } := by
  refine h.of_leavesMembers ⟨rfl, fun _ _ heq => by cases heq⟩ rfl fun d target p => ?_
  rw [lastGrants_append_of_none rfl]
  exact h.grants d target p

theorem Represents.addUser (h : Represents history ac) {userId groupName : Str}
    (hthere : ac.accounts.contains userId = true) :
    Represents (history ++ [.addUserToGroup userId groupName])
      { ac with accounts := ac.accounts.modify userId fun record =>
          { record with groups := insertGroup groupName record.groups } } := by
  have hregistered : ∀ u, Registered (history ++ [.addUserToGroup userId groupName]) u ↔
      Registered history u := by
    intro u
    rw [registered_append]
    refine or_iff_left ?_
    rintro ⟨password, group, salt, heq⟩
    cases heq
  have hin : ∀ u g, InGroup (history ++ [.addUserToGroup userId groupName]) u g ↔
      InGroup history u g ∨ (u = userId ∧ g = groupName) := by
    intro u g
    rw [inGroup_append]
    refine or_congr_right ?_
    constructor
    · rintro (heq | ⟨password, group, salt, heq, -⟩)
      · cases heq
        exact ⟨rfl, rfl⟩
      · cases heq
    · rintro ⟨rfl, rfl⟩
      exact Or.inl rfl
  refine ⟨?_, ?_, ?_, ?_, ?_⟩
  · intro u
    rw [hregistered, ← h.accounts]
    unfold Dict.contains
    rw [Dict.find?_modify]
    by_cases hu : u = userId
    · simp [hu]
    · simp [hu]
  · show (ac.accounts.modify userId _).keys = [] ↔ _
    rw [Dict.keys_modify, h.first]
    simp [Operation.registers]
  · intro u g hg
    rw [hregistered]
    rcases (hin u g).mp hg with hg | ⟨rfl, -⟩
    · exact h.members u g hg
    · exact (h.accounts u).mp hthere
  · intro u record hrecord g
    rw [hin]
    replace hrecord : (ac.accounts.modify userId fun record =>
      { record with groups := insertGroup groupName record.groups }).find? u = some record := hrecord
    rw [Dict.find?_modify] at hrecord
    by_cases hu : u = userId
    · rw [if_pos hu] at hrecord
      obtain ⟨before, hbefore, rfl⟩ := Option.map_eq_some_iff.mp hrecord
      rw [mem_insertGroup, h.groups userId before hbefore, hu]
      simp [or_comm]
    · rw [if_neg hu] at hrecord
      rw [h.groups u record hrecord]
      simp [hu]
  · intro d target p
    rw [lastGrants_append_of_none rfl]
    exact h.grants d target p

theorem Represents.register (h : Represents history ac) {userId password group salt : Str}
    {record : AccountRecord} (hnew : ac.accounts.find? userId = none)
    (hgroups : record.groups = [if group = [] then
      (if ac.accounts.keys = [] then str "admin" else str "user") else group]) (gs : List Str) :
    Represents (history ++ [.registerAccount userId password group salt])
      { ac with groups := gs, accounts := ac.accounts.emplace userId record } := by
  have hgroup : record.groups = [groupAfter history group] := by
    rw [hgroups]
    unfold groupAfter
    by_cases hkeys : ac.accounts.keys = []
    · simp [hkeys, h.first.mp hkeys]
    · have hany : history.any Operation.registers = true := by
        simpa using fun hnone => hkeys (h.first.mpr hnone)
      simp [hkeys, hany]
  have hregistered : ∀ u, Registered (history ++ [.registerAccount userId password group salt]) u ↔
      Registered history u ∨ u = userId := by
    intro u
    rw [registered_append]
    refine or_congr_right ?_
    constructor
    · rintro ⟨password', group', salt', heq⟩
      cases heq
      rfl
    · rintro rfl
      exact ⟨password, group, salt, rfl⟩
  have hin : ∀ u g, InGroup (history ++ [.registerAccount userId password group salt]) u g ↔
      InGroup history u g ∨ (u = userId ∧ g = groupAfter history group) := by
    intro u g
    rw [inGroup_append]
    refine or_congr_right ?_
    constructor
    · rintro (heq | ⟨password', group', salt', heq, hg⟩)
      · cases heq
      · cases heq
        exact ⟨rfl, hg⟩
    · rintro ⟨rfl, rfl⟩
      exact Or.inr ⟨password, group, salt, rfl, rfl⟩
  -- a new name is in no group yet
  have hnone : ∀ g, ¬ InGroup history userId g := by
    intro g hg
    have hthere := (h.accounts userId).mpr (h.members userId g hg)
    rw [Dict.contains, hnew] at hthere
    cases hthere
  refine ⟨?_, ?_, ?_, ?_, ?_⟩
  · intro u
    rw [hregistered, ← h.accounts]
    unfold Dict.contains
    rw [Dict.find?_emplace hnew]
    by_cases hu : u = userId
    · simp [hu]
    · simp [hu]
  · show (ac.accounts.emplace userId record).keys = [] ↔ _
    rw [Dict.keys_emplace hnew]
    simp [Operation.registers]
  · intro u g hg
    rw [hregistered]
    exact ((hin u g).mp hg).imp (h.members u g) fun hsame => hsame.1
  · intro u record' hrecord g
    rw [hin]
    replace hrecord : (ac.accounts.emplace userId record).find? u = some record' := hrecord
    rw [Dict.find?_emplace hnew] at hrecord
    by_cases hu : u = userId
    · rw [if_pos hu] at hrecord
      cases hrecord
      rw [hgroup, hu]
      simp [hnone g]
    · rw [if_neg hu] at hrecord
      rw [h.groups u record' hrecord]
      simp [hu]
  · intro d target p
    rw [lastGrants_append_of_none rfl]
    exact h.grants d target p

/-- **One successful operation keeps the agreement.** -/
theorem Represents.run (h : Represents history ac) {hmac : Hmac} {io : PersistOutcome}
    (hdone : (op.run hmac ac io).2 = .done) :
    Represents (history ++ [op]) (op.run hmac ac io).1 := by
  have heffect := Operation.effect_of_done hdone
  generalize (op.run hmac ac io).1 = ac' at heffect
  cases heffect with
  | grant hc => exact h.grant hc
  | register userId password group salt record hnew hgroups gs => exact h.register hnew hgroups gs
  | createGroup groupName gs => exact h.createGroup groupName gs
  | addUser userId groupName hthere => exact h.addUser hthere

/-- **And so does a run.** -/
theorem Represents.runOperations (h : Represents history ac) {hmac : Hmac}
    {ops : List (Operation × PersistOutcome)} (hdone : Succeeds hmac ac ops) :
    Represents (history ++ ops.map Prod.fst) (Catalog.runOperations hmac ac ops) := by
  induction ops generalizing history ac with
  | nil => rwa [List.map_nil, List.append_nil]
  | cons op ops ih =>
      have hrest := ih (h.run hdone.1) hdone.2
      rwa [List.append_assoc] at hrest

theorem represents_fresh (jwtSecret : Str) : Represents [] (freshController jwtSecret) where
  accounts := by
    intro u
    simp [freshController, Registered, Dict.contains]
  first := by simp [freshController, Dict.keys, Dict.empty]
  members := by
    rintro u g (h | ⟨before, after, password, group, salt, h, -⟩)
    · cases h
    · simp at h
  groups := by
    intro u record hrecord
    cases hrecord
  grants := by
    intro d target p
    have hmask : (freshController jwtSecret).mask d target = 0#32 := by
      cases target with
      | default => rfl
      | group g => rfl
      | user u => rfl
    rw [hmask, hasPermissionInMask_zero]
    simp [LastGrants]

end Steps

/-! ## §4. `Authorize`. -/

/-- **`Authorize` decides the granted relation of every history of successful
operations.** -/
theorem authorize_iff_granted (hmac : Hmac) (jwtSecret : Str)
    {ops : List (Operation × PersistOutcome)}
    (hdone : Succeeds hmac (freshController jwtSecret) ops) (userId databaseName : Str)
    (p : Permission) :
    authorize (runOperations hmac (freshController jwtSecret) ops) userId databaseName p = true ↔
      Registered (ops.map Prod.fst) userId ∧
        (InGroup (ops.map Prod.fst) userId (str "admin") ∨
          LastGrants (ops.map Prod.fst) databaseName .default p ∨
          (∃ g, InGroup (ops.map Prod.fst) userId g ∧
            LastGrants (ops.map Prod.fst) databaseName (.group g) p) ∨
          LastGrants (ops.map Prod.fst) databaseName (.user userId) p) := by
  have h := (represents_fresh jwtSecret).runOperations hdone
  rw [List.nil_append] at h
  rw [authorize_iff_mask]
  constructor
  · rintro ⟨record, hrecord, hheld⟩
    have hthere := (h.accounts userId).mp (by rw [Dict.contains, hrecord]; rfl)
    refine ⟨hthere, ?_⟩
    simp only [h.groups userId record hrecord, h.grants] at hheld
    exact hheld
  · rintro ⟨hregistered, hheld⟩
    have hthere := (h.accounts userId).mpr hregistered
    obtain ⟨record, hrecord⟩ := Option.isSome_iff_exists.mp hthere
    refine ⟨record, hrecord, ?_⟩
    simp only [h.groups userId record hrecord, h.grants]
    exact hheld

/-- An admin, and a user whose right to write is granted, taken and granted. -/
def writerOperations : List (Operation × PersistOutcome) :=
  [(.registerAccount (str "root") (str "r") [] (str "s"), .written),
    (.registerAccount (str "bob") (str "b") [] (str "t"), .written),
    (.grantGroup (str "d") (str "user") .write, .written),
    (.revokeGroup (str "d") (str "user") .write, .written),
    (.grantUser (str "d") (str "bob") .write, .written)]

/-- **The user may write.** -/
theorem authorize_writer :
    Succeeds (fun _ _ => none) (freshController []) writerOperations ∧
    authorize (runOperations (fun _ _ => none) (freshController []) writerOperations)
      (str "bob") (str "d") .write = true := by
  have hdone : Succeeds (fun _ _ => none) (freshController []) writerOperations :=
    ⟨by decide, by decide, by decide, by decide,
      by decide, trivial⟩
  refine ⟨hdone, (authorize_iff_granted _ _ hdone _ _ _).mpr ⟨?_, Or.inr (Or.inr (Or.inr ?_))⟩⟩
  · exact ⟨str "b", [], str "t", List.mem_cons_of_mem _ List.mem_cons_self⟩
  · unfold LastGrants
    decide

end CustomDbms.Catalog
