/-
  CustomDbms.Execution.BareHistory
  ────────────────────────────────
  **STATEMENTS DO NOT READ THE SCHEMAS OF THE LOG.**

  A record keeps the schema of its table, for display only.  A store whose
  records have lost their schemas, as a loaded one has in part, goes through
  every statement as the full store does (`execute_bare`).  So the invariant of
  a store need not speak of them (`execute_bare_ok`).
-/
import CustomDbms.Execution.StoreInvariant

namespace CustomDbms.Execution

open CustomDbms.Common CustomDbms.Catalog CustomDbms.Core CustomDbms.Lib CustomDbms.Parser
open CustomDbms.Storage CustomDbms.Versioning

/-! ## §1. Logs without schemas. -/

/-- A record without its schema. -/
def bareRecord (r : ChangeRecord) : ChangeRecord := { r with schema := none }

/-- A log without schemas. -/
def bareVersions (v : VersionStore) : VersionStore := ⟨v.records.map bareRecord⟩

/-- A store whose log has no schemas. -/
def Store.bare (s : Store) : Store := ⟨s.runtime, bareVersions s.versions⟩

@[simp] theorem bare_runtime (s : Store) : s.bare.runtime = s.runtime := rfl

theorem bareVersions_bare (v : VersionStore) : bareVersions (bareVersions v) = bareVersions v := by
  simp [bareVersions, bareRecord, Function.comp_def]

theorem bare_bare (s : Store) : s.bare.bare = s.bare := by
  rw [Store.bare, Store.bare, bareVersions_bare]

theorem bareVersions_appendChangeEvent (env : Env) (v : VersionStore) (kind : ChangeKind)
    (d t : Str) (schema : Option TableSchema) (before after : Option RowData) :
    bareVersions (appendChangeEvent env v kind d t schema before after)
      = appendChangeEvent env (bareVersions v) kind d t none before after := by
  simp [appendChangeEvent, VersionStore.append, bareVersions, bareRecord]

/-- A row event, which has no schema. -/
theorem appendRow_bare (env : Env) (v : VersionStore) (kind : ChangeKind) (d t : Str)
    (before after : Option RowData) :
    appendChangeEvent env (bareVersions v) kind d t none before after
      = bareVersions (appendChangeEvent env v kind d t none before after) :=
  (bareVersions_appendChangeEvent ..).symm

/-- The records of a table, without schemas. -/
theorem historyForTable_bare (v : VersionStore) (d t : Str) :
    (bareVersions v).historyForTable d t = (v.historyForTable d t).map bareRecord := by
  rw [VersionStore.historyForTable, VersionStore.historyForTable, bareVersions, List.filter_map]
  rfl

theorem latestOf_bare (best : Option Str) (rs : List ChangeRecord) :
    VersionStore.latestOf best (rs.map bareRecord) = VersionStore.latestOf best rs := by
  induction rs generalizing best with
  | nil => rfl
  | cons r rs ih => cases best <;> exact ih _

theorem revertTarget_bare (stmt : RevertStatement) (d : Str) (v : VersionStore) :
    revertTarget stmt d (bareVersions v) = revertTarget stmt d v := by
  have hfilter : ∀ p : ChangeRecord → Bool, (∀ r, p (bareRecord r) = p r) →
      ((bareVersions v).historyForTable d stmt.tableName.objectName).filter p
        = ((v.historyForTable d stmt.tableName.objectName).filter p).map bareRecord := by
    intro p hp
    rw [historyForTable_bare, List.filter_map]
    congr 1
    exact List.filter_congr fun r _ => hp r
  unfold revertTarget
  cases stmt.mode with
  | latest =>
      show Result.ok (VersionStore.latestOf none _) = Result.ok (VersionStore.latestOf none _)
      rw [historyForTable_bare, latestOf_bare]
  | exact =>
      have hany : (bareVersions v).hasExactTimestampForTable d stmt.tableName.objectName
          stmt.timestamp
          = v.hasExactTimestampForTable d stmt.tableName.objectName stmt.timestamp := by
        rw [VersionStore.hasExactTimestampForTable, historyForTable_bare, List.any_map]
        rfl
      simp only [hany]
  | atOrBefore =>
      have hlatest : (bareVersions v).latestTimestampAtOrBefore d stmt.tableName.objectName
          stmt.timestamp
          = v.latestTimestampAtOrBefore d stmt.tableName.objectName stmt.timestamp := by
        rw [VersionStore.latestTimestampAtOrBefore, hfilter _ fun _ => rfl, latestOf_bare]
        rfl
      simp only [hlatest]

theorem reconstructTableStateAt_bare (v : VersionStore) (d t ts : Str) :
    reconstructTableStateAt (bareVersions v) d t ts = reconstructTableStateAt v d t ts := by
  rw [reconstructTableStateAt, reconstructTableStateAt, historyForTable_bare, List.filter_map,
    List.foldl_map]
  rfl

/-! ## §2. Statements on one table. -/

/-- A statement on one table runs on a bare log as on the log. -/
def RunsBare
    (f : Str → TableRuntime → VersionStore → TableRuntime × VersionStore × Result QueryResult) :
    Prop :=
  ∀ d table v, f d table (bareVersions v)
    = ((f d table v).1, bareVersions (f d table v).2.1, (f d table v).2.2)

theorem replaceRows_bare (table : TableRuntime) (v : VersionStore) (rows : List RowData)
    (message : Str) : replaceRows table (bareVersions v) rows message
      = ((replaceRows table v rows message).1, bareVersions (replaceRows table v rows message).2.1,
          (replaceRows table v rows message).2.2) := by
  unfold replaceRows
  cases rebuildIndexes table.schema rows <;> rfl

theorem insertRows_bare (env : Env) (d : Str) (map : List Nat) (inputs : List (List Expression))
    (table : TableRuntime) (v : VersionStore) :
    insertRows env d map inputs table (bareVersions v)
      = ((insertRows env d map inputs table v).1,
          bareVersions (insertRows env d map inputs table v).2.1,
          (insertRows env d map inputs table v).2.2) := by
  have hstore : ∀ (table : TableRuntime) (v : VersionStore) row,
      storeRow env d table (bareVersions v) row = ((storeRow env d table v row).1,
        bareVersions (storeRow env d table v row).2.1, (storeRow env d table v row).2.2) := by
    intro table v row
    simp only [storeRow]
    split
    · simp only [appendRow_bare]
    · rfl
  induction inputs generalizing table v with
  | nil => rfl
  | cons input inputs ih =>
      rw [insertRows, insertRows]
      cases admitRow table map input with
      | error e => rfl
      | fault => rfl
      | ok row =>
          simp only [hstore]
          rcases storeRow env d table v row with ⟨table', v', r⟩
          cases r with
          | ok u => exact ih table' v'
          | error e => rfl
          | fault => rfl

theorem executeInsert_bare (env : Env) (stmt : InsertStatement) :
    RunsBare (executeInsert env stmt) := by
  intro d table v
  unfold executeInsert
  cases insertColumnMap table.schema stmt.columnNames with
  | error e => rfl
  | fault => rfl
  | ok map =>
      simp only
      rw [insertRows_bare]

theorem updateRows_bare (env : Env) (d : Str) (schema : TableSchema) (stmt : UpdateStatement)
    (rows : List RowData) (v : VersionStore) : updateRows env d schema stmt rows (bareVersions v)
      = (bareVersions (updateRows env d schema stmt rows v).1,
          (updateRows env d schema stmt rows v).2) := by
  induction rows generalizing v with
  | nil => rfl
  | cons row rows ih =>
      rw [updateRows, updateRows]
      rcases updateRow env.regexMatch schema stmt row with changed | e | _
      · cases changed with
        | none => simp only [ih]
        | some row' => simp only [appendRow_bare, ih]
      · rfl
      · rfl

theorem executeUpdate_bare (env : Env) (stmt : UpdateStatement) :
    RunsBare (executeUpdate env stmt) := by
  intro d table v
  unfold executeUpdate
  rw [updateRows_bare]
  rcases updateRows env d table.schema stmt table.heap.scanAll v with ⟨v', r⟩
  cases r with
  | ok p => exact replaceRows_bare table v' p.1 _
  | error e => rfl
  | fault => rfl

theorem deleteRows_bare (env : Env) (d : Str) (schema : TableSchema) (stmt : DeleteStatement)
    (rows : List RowData) (v : VersionStore) : deleteRows env d schema stmt rows (bareVersions v)
      = (bareVersions (deleteRows env d schema stmt rows v).1,
          (deleteRows env d schema stmt rows v).2) := by
  induction rows generalizing v with
  | nil => rfl
  | cons row rows ih =>
      rw [deleteRows, deleteRows]
      rcases passes env.regexMatch schema stmt.whereClause row with pass | e | _
      · cases pass with
        | false => simp only [ih]
        | true => simp only [appendRow_bare, ih]
      · rfl
      · rfl

theorem executeDelete_bare (env : Env) (stmt : DeleteStatement) :
    RunsBare (executeDelete env stmt) := by
  intro d table v
  unfold executeDelete
  rw [deleteRows_bare]
  rcases deleteRows env d table.schema stmt table.heap.scanAll v with ⟨v', r⟩
  cases r with
  | ok p => exact replaceRows_bare table v' p.1 _
  | error e => rfl
  | fault => rfl

/-- A loop that logs, turn by turn. -/
theorem foldl_bare {α : Type} {f : VersionStore → α → VersionStore}
    (h : ∀ v a, f (bareVersions v) a = bareVersions (f v a)) (l : List α) (v : VersionStore) :
    l.foldl f (bareVersions v) = bareVersions (l.foldl f v) := by
  induction l generalizing v with
  | nil => rfl
  | cons a l ih => rw [List.foldl_cons, List.foldl_cons, h, ih]

theorem logRevert_bare (env : Env) (d t : Str) (current target : Dict RowId RowData)
    (v : VersionStore) : logRevert env d t current target (bareVersions v)
      = bareVersions (logRevert env d t current target v) := by
  rw [logRevert, logRevert, foldl_bare, foldl_bare]
  · intro v p
    unfold logRestored
    split
    · rfl
    · exact appendRow_bare ..
  · intro v p
    unfold logRemoved
    cases target.find? p.1 with
    | none => exact appendRow_bare ..
    | some row =>
        simp only
        split
        · rfl
        · exact appendRow_bare ..

theorem executeRevert_bare (env : Env) (stmt : RevertStatement) :
    RunsBare (executeRevert env stmt) := by
  intro d table v
  unfold executeRevert
  rw [revertTarget_bare]
  cases revertTarget stmt d v with
  | error e => rfl
  | fault => rfl
  | ok target =>
      cases target with
      | none => rfl
      | some ts =>
          simp only [reconstructTableStateAt_bare]
          split
          · rfl
          · rw [logRevert_bare]
            exact replaceRows_bare ..

/-! ## §3. Statements on a store. -/

theorem withTable_bare (s : Store) (session : SessionContext) (name : QualifiedName)
    {f : Str → TableRuntime → VersionStore → TableRuntime × VersionStore × Result QueryResult}
    (hf : RunsBare f) : withTable s.bare session name f
      = ((withTable s session name f).1.bare, (withTable s session name f).2) := by
  unfold withTable
  cases resolveDatabaseName session name.databaseName with
  | error e => rfl
  | fault => rfl
  | ok db =>
      simp only [bare_runtime]
      cases s.runtime.databases.find? db with
      | none => rfl
      | some d =>
          cases ht : d.tables.find? name.objectName with
          | none => simp only [ht]
          | some table =>
              simp only [ht]
              rw [show s.bare.versions = bareVersions s.versions from rfl, hf]
              rfl

/-- **Without the schemas of its log, a store goes through a statement as
before.** -/
theorem execute_bare (env : Env) (s : Store) (session : SessionContext) (statement : Statement)
    (detail : Str) : (execute env s.bare session statement detail).1.bare
      = (execute env s session statement detail).1.bare := by
  have hrow : ∀ {name} {f : Str → TableRuntime → VersionStore →
      TableRuntime × VersionStore × Result QueryResult}, RunsBare f →
      (withTable s.bare session name f).1.bare = (withTable s session name f).1.bare := by
    intro name f hf
    rw [withTable_bare s session name hf]
    exact bare_bare _
  cases statement with
  | insert stmt => exact hrow (executeInsert_bare env stmt)
  | update stmt => exact hrow (executeUpdate_bare env stmt)
  | delete stmt => exact hrow (executeDelete_bare env stmt)
  | select stmt => exact hrow fun _ _ _ => rfl
  | revert stmt => exact hrow (executeRevert_bare env stmt)
  | createDatabase name =>
      show (executeCreateDatabase env s.bare name).1.bare
        = (executeCreateDatabase env s name).1.bare
      unfold executeCreateDatabase
      rw [bare_runtime]
      split
      · exact bare_bare s
      · simp only [Store.bare, bareVersions_appendChangeEvent, bareVersions_bare]
  | dropDatabase name =>
      show (executeDropDatabase env s.bare session name).1.bare
        = (executeDropDatabase env s session name).1.bare
      unfold executeDropDatabase
      rw [bare_runtime]
      split
      · simp only [Store.bare, bareVersions_appendChangeEvent, bareVersions_bare]
      · exact bare_bare s
  | createTable stmt =>
      show (executeCreateTable env s.bare session stmt).1.bare
        = (executeCreateTable env s session stmt).1.bare
      unfold executeCreateTable
      rw [bare_runtime]
      cases resolveDatabaseName session stmt.tableName.databaseName with
      | error e => exact bare_bare s
      | fault => exact bare_bare s
      | ok db =>
          cases hdb : s.runtime.databases.find? db with
          | none => simp only [hdb, bare_bare]
          | some d =>
              simp only [hdb]
              split
              · exact bare_bare s
              · simp only [Store.bare, bareVersions_appendChangeEvent, bareVersions_bare]
  | dropTable name =>
      show (executeDropTable env s.bare session name).1.bare
        = (executeDropTable env s session name).1.bare
      unfold executeDropTable
      rw [bare_runtime]
      cases resolveDatabaseName session name.databaseName with
      | error e => exact bare_bare s
      | fault => exact bare_bare s
      | ok db =>
          cases hdb : s.runtime.databases.find? db with
          | none => simp only [hdb, bare_bare]
          | some d =>
              cases ht : d.tables.find? name.objectName with
              | none => simp only [hdb, ht, bare_bare]
              | some table =>
                  simp only [hdb, ht, Store.bare, bareVersions_appendChangeEvent,
                    bareVersions_bare]
  | rebuildIndex =>
      show Store.mk _ (bareVersions (bareVersions s.versions))
        = Store.mk _ (bareVersions s.versions)
      rw [bareVersions_bare]
      rfl
  | _ => exact bare_bare s

/-- What the invariant says of a log without schemas. -/
theorem historyOk_bare {v : VersionStore} (h : HistoryOk v) : HistoryOk (bareVersions v) := by
  intro r hr
  obtain ⟨r', hr', rfl⟩ := List.mem_map.mp hr
  exact ⟨(h r' hr').before, (h r' hr').after, fun _ hs => by cases hs⟩

theorem storeOk_bare {s : Store} (h : StoreOk s) : StoreOk s.bare :=
  ⟨h.state, historyOk_bare h.history⟩

/-- **The invariant of a bare store, through a statement.** -/
theorem execute_bare_ok {env : Env} {s : Store} (h : StoreOk s.bare) (session : SessionContext)
    {statement : Statement} (hval : validateStatement statement = .ok ()) (detail : Str) :
    StoreOk (execute env s session statement detail).1.bare := by
  rw [← execute_bare]
  exact storeOk_bare (execute_ok h session hval detail)

end CustomDbms.Execution
