/-
  CustomDbms.Core.DatabaseMetadata
  ────────────────────────────────
  **WHAT CREATE AND DROP DO TO THE METADATA.**

  The metadata of a store are its databases and the schemas of their tables.
  Whether CREATE or DROP applies is decided by the metadata and the database
  the session is in (`metadataAfter`).  Where it applies it is executed, unless
  a file operation fails; where it does not, or inside a transaction, it is
  refused and the committed state is as it was.
-/
import CustomDbms.Core.DatabaseContents

namespace CustomDbms.Core

open CustomDbms.Common CustomDbms.Catalog CustomDbms.Execution CustomDbms.Lib
open CustomDbms.Parser CustomDbms.Planner CustomDbms.Storage CustomDbms.Versioning

/-! ## §1. Metadata. -/

/-- The schemas of the tables of a database. -/
abbrev TableSchemas := Str → Option TableSchema

/-- The databases with the schemas of their tables. -/
abbrev Metadata := Str → Option TableSchemas

/-- The schemas in the tables of a database. -/
def tableSchemas (tables : Dict Str TableRuntime) : TableSchemas :=
  fun t => (tables.find? t).map (·.schema)

/-- The metadata of a store. -/
def metadata (s : Store) : Metadata :=
  fun d => (s.runtime.databases.find? d).map fun db => tableSchemas db.tables

theorem metadata_eq_none {s : Store} {d : Str} :
    metadata s d = none ↔ s.runtime.databases.contains d = false := by
  unfold metadata Dict.contains
  rw [Option.map_eq_none_iff]
  cases s.runtime.databases.find? d with
  | none => simp
  | some db => simp

theorem tableSchemas_eq_none {tables : Dict Str TableRuntime} {t : Str} :
    tableSchemas tables t = none ↔ tables.contains t = false := by
  unfold tableSchemas Dict.contains
  rw [Option.map_eq_none_iff]
  cases tables.find? t with
  | none => simp
  | some table => simp

theorem metadata_emplace {s : Store} {name : Str} (v : VersionStore)
    (h : s.runtime.databases.find? name = none) :
    metadata ⟨⟨s.runtime.databases.emplace name ⟨name, Dict.empty⟩⟩, v⟩
      = Function.update (metadata s) name (some fun _ => none) := by
  funext d
  unfold metadata
  by_cases hd : d = name
  · subst hd
    rw [Function.update_self, Dict.find?_emplace h, if_pos rfl]
    rfl
  · rw [Function.update_of_ne hd, Dict.find?_emplace h, if_neg hd]

theorem metadata_erase (s : Store) (name : Str) (v : VersionStore) :
    metadata ⟨⟨s.runtime.databases.erase name⟩, v⟩ = Function.update (metadata s) name none := by
  funext d
  unfold metadata
  by_cases hd : d = name
  · subst hd
    rw [Function.update_self, Dict.find?_erase, if_pos rfl]
    rfl
  · rw [Function.update_of_ne hd, Dict.find?_erase, if_neg hd]

theorem metadata_modify {s : Store} {d : Str} {db : DatabaseRuntime} (v : VersionStore)
    (f : DatabaseRuntime → DatabaseRuntime) (h : s.runtime.databases.find? d = some db) :
    metadata ⟨⟨s.runtime.databases.modify d f⟩, v⟩
      = Function.update (metadata s) d (some (tableSchemas (f db).tables)) := by
  funext d'
  unfold metadata
  by_cases hd : d' = d
  · subst hd
    rw [Function.update_self, Dict.find?_modify, if_pos rfl, h]
    rfl
  · rw [Function.update_of_ne hd, Dict.find?_modify, if_neg hd]

theorem tableSchemas_emplace {tables : Dict Str TableRuntime} {t : Str} (table : TableRuntime)
    (h : tables.find? t = none) :
    tableSchemas (tables.emplace t table)
      = Function.update (tableSchemas tables) t (some table.schema) := by
  funext t'
  unfold tableSchemas
  by_cases ht : t' = t
  · subst ht
    rw [Function.update_self, Dict.find?_emplace h, if_pos rfl]
    rfl
  · rw [Function.update_of_ne ht, Dict.find?_emplace h, if_neg ht]

theorem tableSchemas_erase (tables : Dict Str TableRuntime) (t : Str) :
    tableSchemas (tables.erase t) = Function.update (tableSchemas tables) t none := by
  funext t'
  unfold tableSchemas
  by_cases ht : t' = t
  · subst ht
    rw [Function.update_self, Dict.find?_erase, if_pos rfl]
    rfl
  · rw [Function.update_of_ne ht, Dict.find?_erase, if_neg ht]

/-! ## §2. CREATE and DROP on metadata. -/

/-- The database a name is resolved to with its tables replaced; `none` where
there is no such database or `f` refuses. -/
def onDatabase (session : SessionContext) (m : Metadata) (name : QualifiedName)
    (f : Str → TableSchemas → Option TableSchemas) : Option Metadata :=
  match resolveDatabaseName session name.databaseName with
  | .ok d => (m d).bind fun tables =>
      (f d tables).map fun tables => Function.update m d (some tables)
  | _ => none

/-- What CREATE and DROP make of metadata; `none` where they do not apply. -/
def metadataAfter (session : SessionContext) (m : Metadata) : Statement → Option Metadata
  | .createDatabase name =>
      if m name = none then some (Function.update m name (some fun _ => none)) else none
  | .dropDatabase name => if m name = none then none else some (Function.update m name none)
  | .createTable stmt => onDatabase session m stmt.tableName fun d tables =>
      if tables stmt.tableName.objectName = none then
        some (Function.update tables stmt.tableName.objectName (some (schemaOf d stmt)))
      else none
  | .dropTable name => onDatabase session m name fun _ tables =>
      if tables name.objectName = none then none
      else some (Function.update tables name.objectName none)
  | _ => none

/-- The executor has done to the store what the statement does to metadata. -/
def MetadataStep (s : Store) (after : Option Metadata) (s' : Store) (isOk : Bool) : Prop :=
  (after = none ∧ s' = s ∧ isOk = false) ∨ (after = some (metadata s') ∧ isOk = true)

theorem executeCreateDatabase_metadata (env : Env) (s : Store) (session : SessionContext)
    (name : Str) :
    MetadataStep s (metadataAfter session (metadata s) (.createDatabase name))
      (executeCreateDatabase env s name).1 (executeCreateDatabase env s name).2.isOk := by
  unfold executeCreateDatabase metadataAfter
  dsimp only
  by_cases h : s.runtime.databases.contains name = true
  · have hsome : metadata s name ≠ none := by
      rw [Ne, metadata_eq_none, h]
      decide
    rw [if_pos h, if_neg hsome]
    exact .inl ⟨rfl, rfl, rfl⟩
  · have hnot : s.runtime.databases.contains name = false := by simpa using h
    have hfind : s.runtime.databases.find? name = none := by simpa [Dict.contains] using hnot
    rw [if_neg h, if_pos (metadata_eq_none.mpr hnot)]
    exact .inr ⟨congrArg some (metadata_emplace _ hfind).symm, rfl⟩

theorem executeDropDatabase_metadata (env : Env) (s : Store) (session : SessionContext)
    (name : Str) :
    MetadataStep s (metadataAfter session (metadata s) (.dropDatabase name))
      (executeDropDatabase env s session name).1
      (executeDropDatabase env s session name).2.2.isOk := by
  unfold executeDropDatabase metadataAfter
  dsimp only
  by_cases h : s.runtime.databases.contains name = true
  · have hsome : metadata s name ≠ none := by
      rw [Ne, metadata_eq_none, h]
      decide
    rw [if_pos h, if_neg hsome]
    exact .inr ⟨congrArg some (metadata_erase s name _).symm, rfl⟩
  · have hnot : s.runtime.databases.contains name = false := by simpa using h
    rw [if_neg h, if_pos (metadata_eq_none.mpr hnot)]
    exact .inl ⟨rfl, rfl, rfl⟩

theorem metadata_of_find? {s : Store} {d : Str} {db : DatabaseRuntime}
    (h : s.runtime.databases.find? d = some db) : metadata s d = some (tableSchemas db.tables) := by
  rw [metadata, h]
  rfl

theorem executeCreateTable_metadata (env : Env) (s : Store) (session : SessionContext)
    (stmt : CreateTableStatement) :
    MetadataStep s (metadataAfter session (metadata s) (.createTable stmt))
      (executeCreateTable env s session stmt).1 (executeCreateTable env s session stmt).2.isOk := by
  unfold executeCreateTable metadataAfter onDatabase
  dsimp only
  cases resolveDatabaseName session stmt.tableName.databaseName with
  | error e => exact .inl ⟨rfl, rfl, rfl⟩
  | fault => exact .inl ⟨rfl, rfl, rfl⟩
  | ok d =>
      dsimp only
      cases hdb : s.runtime.databases.find? d with
      | none =>
          refine .inl ⟨?_, rfl, rfl⟩
          rw [metadata, hdb]
          rfl
      | some db =>
          dsimp only
          rw [metadata_of_find? hdb, Option.bind_some]
          by_cases h : db.tables.contains stmt.tableName.objectName = true
          · have hsome : tableSchemas db.tables stmt.tableName.objectName ≠ none := by
              rw [Ne, tableSchemas_eq_none, h]
              decide
            rw [if_pos h, if_neg hsome]
            exact .inl ⟨rfl, rfl, rfl⟩
          · have hnot : db.tables.contains stmt.tableName.objectName = false := by simpa using h
            have hfind : db.tables.find? stmt.tableName.objectName = none := by
              simpa [Dict.contains] using hnot
            rw [if_neg h, if_pos (tableSchemas_eq_none.mpr hnot)]
            refine .inr ⟨congrArg some ?_, rfl⟩
            rw [metadata_modify _ _ hdb]
            dsimp only
            rw [show (schemaOf d stmt).tableName = stmt.tableName.objectName from rfl,
              tableSchemas_emplace _ hfind]
            rfl

theorem executeDropTable_metadata (env : Env) (s : Store) (session : SessionContext)
    (name : QualifiedName) :
    MetadataStep s (metadataAfter session (metadata s) (.dropTable name))
      (executeDropTable env s session name).1 (executeDropTable env s session name).2.isOk := by
  unfold executeDropTable metadataAfter onDatabase
  dsimp only
  cases resolveDatabaseName session name.databaseName with
  | error e => exact .inl ⟨rfl, rfl, rfl⟩
  | fault => exact .inl ⟨rfl, rfl, rfl⟩
  | ok d =>
      dsimp only
      cases hdb : s.runtime.databases.find? d with
      | none =>
          refine .inl ⟨?_, rfl, rfl⟩
          rw [metadata, hdb]
          rfl
      | some db =>
          dsimp only
          rw [metadata_of_find? hdb, Option.bind_some]
          cases htable : db.tables.find? name.objectName with
          | none =>
              have hnone : tableSchemas db.tables name.objectName = none := by
                rw [tableSchemas, htable]
                rfl
              rw [if_pos hnone]
              exact .inl ⟨rfl, rfl, rfl⟩
          | some table =>
              have hsome : tableSchemas db.tables name.objectName ≠ none := by
                rw [tableSchemas, htable]
                exact Option.some_ne_none _
              rw [if_neg hsome]
              refine .inr ⟨congrArg some ?_, rfl⟩
              rw [metadata_modify _ _ hdb, tableSchemas_erase]

/-- **The executor follows the metadata.** -/
theorem runStatement_metadata (env : Env) (s : Store) (session : SessionContext)
    {statement : Statement} (hddl : isDdlStatement statement = true) :
    MetadataStep s (metadataAfter session (metadata s) statement)
      (runStatement env s session statement).1 (runStatement env s session statement).2.2.isOk := by
  cases statement with
  | createDatabase name => exact executeCreateDatabase_metadata env s session name
  | dropDatabase name => exact executeDropDatabase_metadata env s session name
  | createTable stmt => exact executeCreateTable_metadata env s session stmt
  | dropTable name => exact executeDropTable_metadata env s session name
  | _ => cases hddl

/-! ## §4. Calls of the engine. -/

section Calls

variable {e : DbmsEngine} {session : SessionContext} {sql : Str} {statement : Statement}

theorem executeSql_ddl (env : Env) (io : Io) (hparse : parse sql = .ok statement)
    (hddl : isDdlStatement statement = true) :
    executeSql env io e session sql
      = match e.transactionOf session with
        | some tx =>
            executeInTransaction env e session (transactionKey session) tx sql statement true
        | none => executeAutocommit env io e session sql statement true := by
  refine executeSqlImpl_statement hparse ?_ ?_ ?_
  · rintro rfl
    cases hddl
  · rintro rfl
    cases hddl
  · rintro rfl
    cases hddl

/-- **Where it applies it is executed**, and answered so where the files can be
written. -/
theorem executeSql_applied (env : Env) (io : Io) (hparse : parse sql = .ok statement)
    (hddl : isDdlStatement statement = true) (htx : e.transactionOf session = none) {m : Metadata}
    (h : metadataAfter session (metadata e.store) statement = some m) :
    metadata (executeSql env io e session sql).1.store = m ∧
      (io = Io.good → (executeSql env io e session sql).2.2.isOk = true) := by
  rw [executeSql_ddl env io hparse hddl, htx]
  dsimp only
  rcases runStatement_metadata env e.store session hddl with ⟨hnone, -, -⟩ | ⟨hafter, hisOk⟩
  · rw [h] at hnone
    cases hnone
  · refine ⟨?_, ?_⟩
    · obtain ⟨disk, hmemory⟩ := executeAutocommit_memory env io e session sql statement true
      rw [hmemory]
      exact Option.some.inj (hafter.symm.trans h)
    · rintro rfl
      unfold executeAutocommit
      dsimp only
      cases hresult : (runStatement env e.store session statement).2.2 with
      | error err =>
          rw [hresult] at hisOk
          cases hisOk
      | fault =>
          rw [hresult] at hisOk
          cases hisOk
      | ok result =>
          dsimp only
          by_cases hmutating : isMutatingStatement statement = true
          · rw [if_pos hmutating]
            rfl
          · rw [if_neg hmutating]
            rfl

end Calls

end CustomDbms.Core
