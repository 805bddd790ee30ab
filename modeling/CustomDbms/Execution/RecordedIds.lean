/-
  CustomDbms.Execution.RecordedIds
  ────────────────────────────────
  **THE ROW IDS OF THE LOG.**

  Every record of a row names its id.  No statement takes an id out of the
  records of a table, short of dropping the table and creating it anew
  (`execute_records`).  INSERT numbers the rows it stores upwards from the
  counter of the heap and records these numbers (`insertRows_ids`); whether
  they are new to the log is the question, since the counter looks at the rows
  that are there, not at the log.
-/
import CustomDbms.Execution.SchemaConformance
import CustomDbms.Execution.BareHistory

namespace CustomDbms.Execution

open CustomDbms.Common CustomDbms.Catalog CustomDbms.Core CustomDbms.Lib CustomDbms.Parser
open CustomDbms.Storage CustomDbms.Versioning

/-! ## §1. Recorded ids. -/

/-- The row ids in the records of a table since it was created. -/
def recordedIds (v : VersionStore) (databaseName tableName : Str) : List Nat :=
  (incarnation (v.historyForTable databaseName tableName)).filterMap (·.rowId)

/-- Only the kinds of the records count. -/
theorem incarnation_map {g : ChangeRecord → ChangeRecord} (hkind : ∀ r, (g r).kind = r.kind)
    (records : List ChangeRecord) : incarnation (records.map g) = (incarnation records).map g := by
  induction records using List.reverseRecOn with
  | nil => rfl
  | append_singleton records r ih =>
      rw [List.map_append, List.map_singleton, incarnation_append, incarnation_append, hkind, ih]
      by_cases hk : r.kind = .createTable
      · rw [if_pos hk, if_pos hk, List.map_nil]
      · rw [if_neg hk, if_neg hk, List.map_append, List.map_singleton]

theorem incarnation_bare (v : VersionStore) (d t : Str) :
    incarnation ((bareVersions v).historyForTable d t)
      = (incarnation (v.historyForTable d t)).map bareRecord := by
  rw [historyForTable_bare]
  exact incarnation_map (g := bareRecord) (fun _ => rfl) _

theorem recordedIds_bare (v : VersionStore) (d t : Str) :
    recordedIds (bareVersions v) d t = recordedIds v d t := by
  rw [recordedIds, incarnation_bare, List.filterMap_map]
  rfl

/-- A record of another table. -/
theorem recordedIds_other (env : Env) (v : VersionStore) (kind : ChangeKind) {d t d' t' : Str}
    (schema : Option TableSchema) (before after : Option RowData) (hne : ¬ (d = d' ∧ t = t')) :
    recordedIds (appendChangeEvent env v kind d t schema before after) d' t'
      = recordedIds v d' t' := by
  obtain ⟨r, -, -, -, hh⟩ :=
    historyForTable_appendChangeEvent env v kind d t schema before after d' t'
  rw [recordedIds, hh, if_neg hne, List.append_nil]
  rfl

/-- The record of an event. -/
theorem historyForTable_event (env : Env) (v : VersionStore) (d t : Str) (ev : RowEvent) :
    ∃ r : ChangeRecord, r.kind ≠ .createTable ∧ r.rowId = ev.rowId ∧ r.afterRow = ev.after ∧
      (appendChangeEvent env v ev.kind d t none ev.before ev.after).historyForTable d t
        = v.historyForTable d t ++ [r] := by
  have hlog : ∃ r : ChangeRecord, r.kind = ev.kind ∧ r.rowId = ev.rowId ∧ r.afterRow = ev.after ∧
      (appendChangeEvent env v ev.kind d t none ev.before ev.after).historyForTable d t
        = v.historyForTable d t ++ if d = d ∧ t = t then [r] else [] := by
    refine ⟨_, ?_, ?_, ?_, historyForTable_append d t⟩ <;> cases ev <;> rfl
  obtain ⟨r, hkind, hid, hafter, hh⟩ := hlog
  rw [if_pos ⟨rfl, rfl⟩] at hh
  refine ⟨r, ?_, hid, hafter, hh⟩
  rw [hkind]
  cases ev <;> simp [RowEvent.kind]

/-- **An event records its id.** -/
theorem recordedIds_event (env : Env) (v : VersionStore) (d t : Str) (ev : RowEvent) :
    recordedIds (appendChangeEvent env v ev.kind d t none ev.before ev.after) d t
      = recordedIds v d t ++ ev.rowId.toList := by
  obtain ⟨r, hrow, hid, -, hh⟩ := historyForTable_event env v d t ev
  rw [recordedIds, hh, incarnation_append, if_neg hrow, List.filterMap_append]
  show recordedIds v d t ++ _ = _
  congr 1
  rw [List.filterMap_cons, hid]
  cases ev.rowId <;> rfl

/-- **What row events add to the recorded ids.** -/
theorem recordedIds_logEvents (env : Env) (v : VersionStore) (d t : Str) (evs : List RowEvent) :
    recordedIds (logEvents env d t v evs) d t
      = recordedIds v d t ++ evs.filterMap RowEvent.rowId := by
  induction evs generalizing v with
  | nil => simp
  | cons ev evs ih =>
      rw [logEvents_cons, ih, recordedIds_event, List.append_assoc, List.filterMap_cons]
      cases ev.rowId <;> rfl

/-! ## §2. Recorded ids stay. -/

/-- The ids are among those recorded for a table. -/
def RecordsAll (ids : List Nat) (databaseName tableName : Str) : TableProperty :=
  fun v d t _ => d = databaseName → t = tableName →
    ∀ i ∈ ids, i ∈ recordedIds v databaseName tableName

theorem recordsAll_local (env : Env) (ids : List Nat) (d₀ t₀ : Str) :
    Local env (RecordsAll ids d₀ t₀) := by
  intro v kind d t schema before after d' t' w hne h hd ht i hi
  subst hd ht
  rw [recordedIds_other env v kind schema before after hne]
  exact h rfl rfl i hi

/-- A statement on one table logs row events. -/
def LogsEvents (env : Env) (t : Str)
    (f : Str → TableRuntime → VersionStore → TableRuntime × VersionStore × Result QueryResult) :
    Prop :=
  ∀ d table v, TableOk d t table → ∃ evs, (f d table v).2.1 = logEvents env d t v evs

theorem Replaces.logsEvents {table : TableRuntime} {log : List RowEvent → VersionStore}
    {applies : List RowData → List RowEvent → Prop} {starts : List RowEvent → Prop}
    {r : TableRuntime × VersionStore × Result QueryResult}
    (h : Replaces table log applies starts r) : ∃ evs, r.2.1 = log evs := by
  rcases h with ⟨_, evs, -, -, hv, -⟩ | ⟨-, -, -, evs, -, hv⟩
  · exact ⟨evs, hv⟩
  · exact ⟨evs, hv⟩

theorem executeInsert_logsEvents (env : Env) (stmt : InsertStatement) (t : Str) :
    LogsEvents env t (executeInsert env stmt) := by
  intro d table v h
  obtain ⟨evs, hv, -⟩ := executeInsert_logged env h
  exact ⟨evs, hv⟩

theorem executeUpdate_logsEvents (env : Env) (stmt : UpdateStatement) (t : Str) :
    LogsEvents env t (executeUpdate env stmt) := by
  intro d table v h
  have hrep := executeUpdate_replaces env stmt h v
  rw [h.schema.table] at hrep
  exact hrep.logsEvents

theorem executeDelete_logsEvents (env : Env) (stmt : DeleteStatement) (t : Str) :
    LogsEvents env t (executeDelete env stmt) := by
  intro d table v h
  have hrep := executeDelete_replaces env stmt h v
  rw [h.schema.table] at hrep
  exact hrep.logsEvents

theorem executeRevert_logsEvents (env : Env) (stmt : RevertStatement) (t : Str) :
    LogsEvents env t (executeRevert env stmt) := by
  intro d table v h
  have hrep := executeRevert_replaces env stmt h v
  rw [h.schema.table] at hrep
  exact hrep.logsEvents

/-- **Row events take no id away.** -/
theorem RecordsAll.leaves {env : Env} {s : Store} (hok : StateOk s.runtime) {ids : List Nat}
    {d₀ t₀ : Str} (h : EachTable (RecordsAll ids d₀ t₀) s) {session : SessionContext}
    {name : QualifiedName}
    {f : Str → TableRuntime → VersionStore → TableRuntime × VersionStore × Result QueryResult}
    (hf : LogsEvents env name.objectName f) :
    Leaves env (RecordsAll ids d₀ t₀) s session name f := by
  intro d db table hon
  obtain ⟨evs, hv⟩ := hf d table s.versions ((hok d db hon.found).tables _ _ hon.table)
  refine ⟨evs, hv, ?_⟩
  intro hd ht i hi
  subst hd ht
  rw [recordedIds_logEvents]
  exact List.mem_append_left _ (h d db _ table hon.found hon.table rfl rfl i hi)

/-- **The ids recorded for a table stay**, unless the table is created anew. -/
theorem execute_records (env : Env) {s : Store} (hok : StateOk s.runtime) {ids : List Nat}
    {d t : Str} (h : EachTable (RecordsAll ids d t) s)
    (habsent : (∀ db, s.runtime.databases.find? d = some db → db.tables.find? t = none) → ids = [])
    (session : SessionContext) (statement : Statement) (detail : Str) :
    EachTable (RecordsAll ids d t) (execute env s session statement detail).1 := by
  apply h.execute hok (recordsAll_local env ids d t)
  · -- a table that is created has no ids yet
    intro d' db t' schema hdb ht hd' ht' i hi
    subst hd' ht'
    have hnil : ids = [] := by
      apply habsent
      intro db' hdb'
      rw [hdb] at hdb'
      cases hdb'
      exact ht
    rw [hnil] at hi
    cases hi
  · intro stmt _
    exact RecordsAll.leaves hok h (executeInsert_logsEvents env stmt _)
  · intro stmt _
    exact RecordsAll.leaves hok h (executeUpdate_logsEvents env stmt _)
  · intro stmt _
    exact RecordsAll.leaves hok h (executeDelete_logsEvents env stmt _)
  · intro stmt _
    exact RecordsAll.leaves hok h (executeRevert_logsEvents env stmt _)

/-! ## §3. The ids of an INSERT. -/

/-- What an `INSERT` leaves of a table: rows behind the old ones, numbered from
the counter on, each with its event; at least one exactly where the first row
is admitted. -/
structure InsertsRows (env : Env) (d t : Str) (table : TableRuntime) (v : VersionStore)
    (admitted : Prop) (table' : TableRuntime) (v' : VersionStore) (added : List RowData) :
    Prop where
  rows : table'.heap.rows = table.heap.rows ++ added
  ids : added.filterMap (·.rowId) = List.range' table.heap.nextRowId added.length
  log : v' = logEvents env d t v (added.map .inserted)
  first : added ≠ [] ↔ admitted

theorem insertsRows_same (env : Env) (d t : Str) (table : TableRuntime) (v : VersionStore)
    {admitted : Prop} (hno : ¬ admitted) : InsertsRows env d t table v admitted table v [] :=
  ⟨(List.append_nil _).symm, rfl, rfl, iff_of_false (fun h => h rfl) hno⟩

/-- **The loop over the input rows counts on.** -/
theorem insertRows_ids (env : Env) {d t : Str} {table : TableRuntime} (h : TableOk d t table)
    (map : List Nat) (inputs : List (List Expression)) (v : VersionStore) :
    ∃ added, InsertsRows env d t table v
      (∃ input rest row, inputs = input :: rest ∧ admitRow table map input = .ok row)
      (insertRows env d map inputs table v).1 (insertRows env d map inputs table v).2.1 added := by
  induction inputs generalizing table v with
  | nil => exact ⟨[], insertsRows_same env d t table v (by simp)⟩
  | cons input inputs ih =>
      rw [insertRows]
      cases hrow : admitRow table map input with
      | error e => exact ⟨[], insertsRows_same env d t table v (by simp [hrow])⟩
      | fault => exact ⟨[], insertsRows_same env d t table v (by simp [hrow])⟩
      | ok row =>
          obtain ⟨hid, hlen, hnew⟩ := admitRow_ok h hrow
          obtain ⟨table', hrun, hok, -, hrows⟩ := storeRow_ok env v h hid hlen hnew
          simp only [hrun]
          obtain ⟨added, hadded⟩ := ih hok (appendChangeEvent env v .insertRow d
            table.schema.tableName none none
            (some { row with rowId := some table.heap.nextRowId }))
          -- the counter stands one higher
          have hnext : table'.heap.nextRowId = table.heap.nextRowId + 1 := by
            rw [hok.heap.next, hrows, nextAfter_concat, ← h.heap.next]
            simp
          refine ⟨{ row with rowId := some table.heap.nextRowId } :: added, ?_, ?_, ?_, ?_⟩
          · rw [hadded.rows, hrows, List.append_assoc]
            rfl
          · rw [List.filterMap_cons, hadded.ids, hnext, List.length_cons, List.range'_succ]
          · rw [hadded.log, List.map_cons, logEvents_cons, h.schema.table]
            rfl
          · exact iff_of_true (List.cons_ne_nil _ _) ⟨input, inputs, row, rfl, hrow⟩

/-- The statement finds the first of its rows admissible. -/
def AdmitsFirst (stmt : InsertStatement) (table : TableRuntime) : Prop :=
  ∃ map input rest row, insertColumnMap table.schema stmt.columnNames = .ok map ∧
    stmt.rows = input :: rest ∧ admitRow table map input = .ok row

/-- **What an `INSERT` assigns.** -/
theorem executeInsert_ids (env : Env) {d t : Str} {table : TableRuntime} (h : TableOk d t table)
    (stmt : InsertStatement) (v : VersionStore) :
    ∃ added, InsertsRows env d t table v (AdmitsFirst stmt table)
      (executeInsert env stmt d table v).1 (executeInsert env stmt d table v).2.1 added := by
  unfold executeInsert
  cases hmap : insertColumnMap table.schema stmt.columnNames with
  | error e => exact ⟨[], insertsRows_same env d t table v (by simp [AdmitsFirst, hmap])⟩
  | fault => exact ⟨[], insertsRows_same env d t table v (by simp [AdmitsFirst, hmap])⟩
  | ok map =>
      obtain ⟨added, hadded⟩ := insertRows_ids env h map stmt.rows v
      refine ⟨added, hadded.rows, hadded.ids, hadded.log, hadded.first.trans ?_⟩
      constructor
      · rintro ⟨input, rest, row, hrows, hrow⟩
        exact ⟨map, input, rest, row, hmap, hrows, hrow⟩
      · rintro ⟨map', input, rest, row, hmap', hrows, hrow⟩
        rw [hmap] at hmap'
        cases hmap'
        exact ⟨input, rest, row, hrows, hrow⟩

/-! ## §4. Where ids come from. -/

/-- The id, if there is one, is in the list. -/
def IdIn (ids : List Nat) (i : RowId) : Prop := ∀ n ∈ i, n ∈ ids

/-- Rows, records since the table was created and the rows they describe bear
ids of the list. -/
structure BearsIds (ids : List Nat) (v : VersionStore) (d t : Str) (rows : List RowData) :
    Prop where
  rows : ∀ row ∈ rows, IdIn ids row.rowId
  records : ∀ r ∈ incarnation (v.historyForTable d t),
    IdIn ids r.rowId ∧ ∀ row ∈ r.afterRow, IdIn ids row.rowId

theorem BearsIds.mono {ids ids' : List Nat} {v : VersionStore} {d t : Str} {rows : List RowData}
    (h : BearsIds ids v d t rows) (hsub : ids ⊆ ids') : BearsIds ids' v d t rows :=
  ⟨fun row hrow n hn => hsub (h.rows row hrow n hn), fun r hr =>
    ⟨fun n hn => hsub ((h.records r hr).1 n hn),
      fun row hrow n hn => hsub ((h.records r hr).2 row hrow n hn)⟩⟩

/-- The schemas of the records do not matter. -/
theorem bearsIds_bare {ids : List Nat} {v : VersionStore} {d t : Str} {rows : List RowData} :
    BearsIds ids (bareVersions v) d t rows ↔ BearsIds ids v d t rows := by
  constructor
  · intro h
    refine ⟨h.rows, fun r hr => h.records (bareRecord r) ?_⟩
    rw [incarnation_bare]
    exact List.mem_map_of_mem hr
  · intro h
    refine ⟨h.rows, fun r hr => ?_⟩
    rw [incarnation_bare] at hr
    obtain ⟨r', hr', rfl⟩ := List.mem_map.mp hr
    exact h.records r' hr'

/-- Recorded ids are of the list. -/
theorem BearsIds.recorded {ids : List Nat} {v : VersionStore} {d t : Str} {rows : List RowData}
    (h : BearsIds ids v d t rows) : ∀ i ∈ recordedIds v d t, i ∈ ids := by
  intro i hi
  obtain ⟨r, hr, hid⟩ := List.mem_filterMap.mp hi
  exact (h.records r hr).1 i hid

/-- The same of the table of a name. -/
def BearsOnly (ids : List Nat) (databaseName tableName : Str) : TableProperty :=
  fun v d t w => d = databaseName → t = tableName →
    BearsIds ids v databaseName tableName w.heap.rows

theorem bearsOnly_local (env : Env) (ids : List Nat) (d₀ t₀ : Str) :
    Local env (BearsOnly ids d₀ t₀) := by
  intro v kind d t schema before after d' t' w hne h hd ht
  subst hd ht
  obtain ⟨r, -, -, -, hh⟩ :=
    historyForTable_appendChangeEvent env v kind d t schema before after d' t'
  rw [if_neg hne, List.append_nil] at hh
  have hbears := h rfl rfl
  exact ⟨hbears.rows, hh ▸ hbears.records⟩

theorem bearsOnly_new (env : Env) (ids : List Nat) (d₀ t₀ : Str) :
    HoldsNew env (BearsOnly ids d₀ t₀) := by
  intro v d t schema hd ht
  subst hd ht
  obtain ⟨r, hk, -, -, hh⟩ :=
    historyForTable_appendChangeEvent env v .createTable d t (some schema) none none d t
  rw [if_pos ⟨rfl, rfl⟩] at hh
  refine ⟨by simp [tableOf, TableRuntime.view, TableHeap.new], ?_⟩
  rw [hh, incarnation_append, if_pos hk]
  simp

/-- The row an event leaves bears its id. -/
theorem RowEvent.rowId_after {ev : RowEvent} {row : RowData} (h : row ∈ ev.after) :
    row.rowId = ev.rowId := by
  cases ev <;> cases h <;> rfl

theorem BearsIds.logEvents (env : Env) {ids : List Nat} {v : VersionStore} {d t : Str}
    {rows rows' : List RowData} (h : BearsIds ids v d t rows) {evs : List RowEvent}
    (hevs : ∀ ev ∈ evs, IdIn ids ev.rowId) (hrows : ∀ row ∈ rows', IdIn ids row.rowId) :
    BearsIds ids (logEvents env d t v evs) d t rows' := by
  refine ⟨hrows, ?_⟩
  have hrecords := h.records
  clear h hrows
  induction evs generalizing v with
  | nil => exact hrecords
  | cons ev evs ih =>
      rw [logEvents_cons]
      apply ih fun e he => hevs e (by simp [he])
      obtain ⟨r, hkind, hid, hafter, hh⟩ := historyForTable_event env v d t ev
      have hev := hevs ev (by simp)
      rw [hh, incarnation_append, if_neg hkind]
      intro x hx
      rcases List.mem_append.mp hx with hx | hx
      · exact hrecords x hx
      · rw [List.mem_singleton.mp hx, hid, hafter]
        refine ⟨hev, fun row hrow => ?_⟩
        rw [RowEvent.rowId_after hrow]
        exact hev

/-- What a statement leaves of a table: events and rows with ids of the list. -/
def LeavesIds {α : Type} (ids : List Nat) (env : Env) (d t : Str) (v : VersionStore)
    (r : TableRuntime × VersionStore × Result α) : Prop :=
  ∃ evs, r.2.1 = logEvents env d t v evs ∧ (∀ ev ∈ evs, IdIn ids ev.rowId) ∧
    ∀ row ∈ r.1.heap.rows, IdIn ids row.rowId

section Statements

variable {env : Env} {ids : List Nat} {d t : Str} {table : TableRuntime} {v : VersionStore}

/-- The statements that replace all rows. -/
theorem Replaces.leavesIds {applies : List RowData → List RowEvent → Prop}
    {starts : List RowEvent → Prop} {r : TableRuntime × VersionStore × Result QueryResult}
    (h : Replaces table (logEvents env d t v) applies starts r)
    (hids : ∀ row ∈ table.heap.rows, IdIn ids row.rowId)
    (happlies : ∀ rows evs, applies rows evs →
      (∀ row ∈ rows, IdIn ids row.rowId) ∧ ∀ ev ∈ evs, IdIn ids ev.rowId)
    (hstarts : ∀ evs, starts evs → ∀ ev ∈ evs, IdIn ids ev.rowId) :
    LeavesIds ids env d t v r := by
  rcases h with ⟨rows, evs, happ, ⟨-, hheap⟩, hv, -⟩ | ⟨-, htab, -, evs, hevs, hv⟩
  · obtain ⟨hrows, hevs⟩ := happlies rows evs happ
    refine ⟨evs, hv, hevs, ?_⟩
    rw [hheap]
    exact hrows
  · refine ⟨evs, hv, ?_, by rw [htab]; exact hids⟩
    rcases hevs with rfl | hevs
    · simp
    · exact hstarts evs hevs

/-- Ids of a sublist. -/
theorem idIn_of_sublist {rows : List RowData} {is : List RowId}
    (hsub : List.Sublist is (rows.map (·.rowId))) (hids : ∀ row ∈ rows, IdIn ids row.rowId) :
    ∀ i ∈ is, IdIn ids i := by
  intro i hi
  obtain ⟨row, hrow, rfl⟩ := List.mem_map.mp (hsub.subset hi)
  exact hids row hrow

theorem executeUpdate_leavesIds (h : TableOk d t table) (stmt : UpdateStatement)
    (hids : ∀ row ∈ table.heap.rows, IdIn ids row.rowId) :
    LeavesIds ids env d t v (executeUpdate env stmt d table v) := by
  have hrep := executeUpdate_replaces env stmt h v
  rw [h.schema.table] at hrep
  apply hrep.leavesIds hids
  · intro rows evs happ
    refine ⟨fun row hrow => ?_, fun ev hev => ?_⟩
    · exact idIn_of_sublist (happ.1.rows.1 ▸ List.Sublist.refl _) hids _
        (List.mem_map_of_mem hrow)
    · exact idIn_of_sublist happ.1.ids hids _ (List.mem_map_of_mem hev)
  · rintro evs ⟨A, B, A', hAB, hA⟩ ev hev
    refine idIn_of_sublist hA.ids (fun row hrow => ?_) _ (List.mem_map_of_mem hev)
    exact hids row (by rw [hAB]; exact List.mem_append_left B hrow)

theorem executeDelete_leavesIds (h : TableOk d t table) (stmt : DeleteStatement)
    (hids : ∀ row ∈ table.heap.rows, IdIn ids row.rowId) :
    LeavesIds ids env d t v (executeDelete env stmt d table v) := by
  have hrep := executeDelete_replaces env stmt h v
  rw [h.schema.table] at hrep
  apply hrep.leavesIds hids
  · intro rows evs happ
    refine ⟨fun row hrow => hids row (DeletedRows.sublist happ |>.subset hrow), fun ev hev => ?_⟩
    exact idIn_of_sublist (DeletedRows.ids happ) hids _ (List.mem_map_of_mem hev)
  · rintro evs ⟨A, B, A', hAB, hA⟩ ev hev
    refine idIn_of_sublist hA.ids (fun row hrow => ?_) _ (List.mem_map_of_mem hev)
    exact hids row (by rw [hAB]; exact List.mem_append_left B hrow)

/-- A `REVERT` logs events about rows that are there and rows it brings back. -/
theorem idIn_revertEvents {current target : List RowData}
    (hcurrent : ∀ row ∈ current, IdIn ids row.rowId)
    (htarget : ∀ row ∈ target, IdIn ids row.rowId) :
    ∀ ev ∈ revertEvents (rowsById current) (rowsById target), IdIn ids ev.rowId := by
  intro ev hev
  rcases List.mem_append.mp hev with hev | hev
  · obtain ⟨p, hmem, hp⟩ := List.mem_filterMap.mp hev
    unfold removalEvent at hp
    split at hp
    · cases hp
      exact hcurrent _ (mem_rowsById hmem).1
    · rename_i row hrow
      split at hp
      · cases hp
      · cases hp
        exact htarget _ (mem_rowsById (Dict.mem_entries_iff.mpr hrow)).1
  · obtain ⟨p, hmem, hp⟩ := List.mem_filterMap.mp hev
    unfold restoreEvent at hp
    split at hp
    · cases hp
    · cases hp
      exact htarget _ (mem_rowsById hmem).1

theorem executeRevert_leavesIds (h : TableOk d t table) {stmt : RevertStatement}
    (hids : ∀ row ∈ table.heap.rows, IdIn ids row.rowId)
    (htarget : ∀ ts, revertTarget stmt d v = .ok (some ts) →
      ∀ row ∈ reconstructTableStateAt v d stmt.tableName.objectName ts, IdIn ids row.rowId) :
    LeavesIds ids env d t v (executeRevert env stmt d table v) := by
  have hrep := executeRevert_replaces env stmt h v
  rw [h.schema.table] at hrep
  apply hrep.leavesIds hids
  · rintro rows evs ⟨⟨ts, hts, rfl, -⟩, rfl⟩
    exact ⟨htarget ts hts, idIn_revertEvents hids (htarget ts hts)⟩
  · rintro evs ⟨ts, hts, -, rfl⟩
    exact idIn_revertEvents hids (htarget ts hts)

end Statements

/-- What holds of the statement on the table `d.t` holds of the store. -/
theorem BearsIds.leaves {env : Env} {s : Store} (hok : StateOk s.runtime) {ids : List Nat}
    {d t : Str} (h : EachTable (BearsOnly ids d t) s) {session : SessionContext}
    {name : QualifiedName}
    {f : Str → TableRuntime → VersionStore → TableRuntime × VersionStore × Result QueryResult}
    (hlogs : LogsEvents env name.objectName f)
    (hf : ∀ db table, name.objectName = t → OnTable s session name d db table →
      BearsIds ids s.versions d t table.heap.rows →
      LeavesIds ids env d name.objectName s.versions (f d table s.versions)) :
    Leaves env (BearsOnly ids d t) s session name f := by
  intro d' db table hon
  by_cases hthis : d' = d ∧ name.objectName = t
  · obtain ⟨rfl, ht⟩ := hthis
    have hbears := h d' db _ table hon.found hon.table rfl ht
    obtain ⟨evs, hv, hevs, hrows⟩ := hf db table ht hon hbears
    subst ht
    exact ⟨evs, hv, fun _ _ => hbears.logEvents env hevs hrows⟩
  · obtain ⟨evs, hv⟩ := hlogs d' table s.versions ((hok d' db hon.found).tables _ _ hon.table)
    exact ⟨evs, hv, fun hd ht => absurd ⟨hd, ht⟩ hthis⟩

/-- **No statement brings an id from elsewhere**, but an INSERT the new ones,
and a REVERT behind the CREATE TABLE those of an earlier table. -/
theorem execute_bears (env : Env) {s : Store} (hok : StateOk s.runtime) {ids : List Nat}
    {d t : Str} (h : EachTable (BearsOnly ids d t) s) (session : SessionContext)
    {statement : Statement} (detail : Str)
    (hno : revertsPastCreation s session statement = false)
    (hinsert : ∀ stmt db table, statement = .insert stmt → stmt.tableName.objectName = t →
      OnTable s session stmt.tableName d db table →
      ∀ row ∈ (executeInsert env stmt d table s.versions).1.heap.rows, IdIn ids row.rowId) :
    EachTable (BearsOnly ids d t) (execute env s session statement detail).1 := by
  have htab : ∀ {name d db table}, OnTable s session name d db table →
      TableOk d name.objectName table := fun hon => (hok _ _ hon.found).tables _ _ hon.table
  apply h.execute hok (bearsOnly_local env ids d t) (bearsOnly_new env ids d t).created
  · intro stmt hstmt
    apply BearsIds.leaves hok h (executeInsert_logsEvents env stmt _)
    intro db table ht hon _
    obtain ⟨added, hadded⟩ := executeInsert_ids env (htab hon) stmt s.versions
    have hrows := hinsert stmt db table hstmt ht hon
    refine ⟨added.map .inserted, hadded.log, ?_, hrows⟩
    intro ev hev
    obtain ⟨row, hrow, rfl⟩ := List.mem_map.mp hev
    exact hrows row (by rw [hadded.rows]; exact List.mem_append_right _ hrow)
  · intro stmt _
    apply BearsIds.leaves hok h (executeUpdate_logsEvents env stmt _)
    intro db table _ hon hbears
    exact executeUpdate_leavesIds (htab hon) stmt hbears.rows
  · intro stmt _
    apply BearsIds.leaves hok h (executeDelete_logsEvents env stmt _)
    intro db table _ hon hbears
    exact executeDelete_leavesIds (htab hon) stmt hbears.rows
  · rintro stmt rfl
    apply BearsIds.leaves hok h (executeRevert_logsEvents env stmt _)
    intro db table ht hon hbears
    apply executeRevert_leavesIds (htab hon) hbears.rows
    intro ts hts row hrow
    subst ht
    obtain ⟨r, hr, hafter⟩ := reconstruct_incarnation
      (createdBefore_of_not_past hon hno hts) row hrow
    exact (hbears.records r hr).2 row hafter

end CustomDbms.Execution
