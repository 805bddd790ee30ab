/-
  CustomDbms.Execution.Effects
  ────────────────────────────
  **WHICH STATEMENTS SUCCEED AND CHANGE SOMETHING.**

  `ChangesStore` says of each statement, in terms of the store it finds, when
  it succeeds and leaves other tables, rows or records behind; all other
  statements fail, or succeed and leave the view of the state and the log as
  they were (`changesStore_iff`).
-/
import CustomDbms.Execution.RowMaps
import CustomDbms.Execution.StatementAtomicity

namespace CustomDbms.Execution

open CustomDbms.Common CustomDbms.Catalog CustomDbms.Core CustomDbms.Index CustomDbms.Lib
open CustomDbms.Parser CustomDbms.Storage CustomDbms.Versioning

/-! ## §1. Rows that can be indexed can be replaced. -/

/-- **`RebuildIndexes` succeeds exactly on rows with distinct keys.** -/
theorem rebuildIndexes_isOk_iff {d t : Str} {schema : TableSchema} (hs : SchemaOk d t schema)
    {rows : List RowData} :
    (∃ indexes, rebuildIndexes schema rows = .ok indexes) ↔
      ∀ n ∈ indexedColumns schema, Indexable schema n rows := by
  constructor
  · rintro ⟨indexes, hrun⟩ n hn
    obtain ⟨hkeys, hok⟩ := rebuildIndexes_ok hs hrun
    obtain ⟨tree, htree⟩ := Dict.mem_keys_iff.mp (hkeys ▸ hn)
    exact (hok n tree (Dict.mem_entries_iff.mpr htree)).indexable
  · intro hix
    obtain ⟨indexes, hrun, -⟩ := indexRows_total (P := IndexOk schema)
      (f := checkedIndexEntry schema) rows (indexesOk_empty schema) (by
        intro A r B n tree heq hn hA
        have hrows := hix n (keys_emptyIndexes hs ▸ hn)
        rw [heq] at hrows
        obtain ⟨k, hk, hnew⟩ := hrows.key_new
        have hA' : IndexOk schema A n tree := by simpa using hA
        obtain ⟨i, hi, hfresh⟩ := freshIndexKey_eq hA' hk
        rw [if_pos (rowsWithKey_eq_nil.mpr hnew)] at hfresh
        obtain ⟨tree', hins, hok⟩ := hA'.insert hk hnew
        exact ⟨tree', by simp [checkedIndexEntry, hi, hfresh, hins], by simpa using hok⟩)
    exact ⟨indexes, by rw [rebuildIndexes, hrun]⟩

theorem indexable_sublist {schema : TableSchema} {n : Str} {rows rows' : List RowData}
    (h : Indexable schema n rows) (hsub : List.Sublist rows' rows) : Indexable schema n rows' :=
  ⟨fun r hr => h.1 r (hsub.subset hr), h.2.sublist (hsub.map _)⟩

/-- The table after its rows were replaced. -/
def IsReplaced (table table' : TableRuntime) (rows : List RowData) : Prop :=
  table'.schema = table.schema ∧ table'.heap = TableHeap.replaceAll rows

/-- Replacing rows succeeds exactly when they can be indexed. -/
theorem replaceRows_cases {d t : Str} {table : TableRuntime} (h : TableOk d t table)
    (v : VersionStore) (rows : List RowData) (message : Str) :
    ((∀ n ∈ indexedColumns table.schema, Indexable table.schema n rows) ∧
      IsReplaced table (replaceRows table v rows message).1 rows ∧
      (replaceRows table v rows message).2 = (v, .ok (.ofMessage message))) ∨
    ((¬ ∀ n ∈ indexedColumns table.schema, Indexable table.schema n rows) ∧
      (replaceRows table v rows message).1 = table ∧
      (replaceRows table v rows message).2.1 = v ∧
      ∀ r, (replaceRows table v rows message).2.2 ≠ .ok r) := by
  rw [← rebuildIndexes_isOk_iff h.schema]
  unfold replaceRows
  cases rebuildIndexes table.schema rows with
  | ok indexes => exact .inl ⟨⟨indexes, rfl⟩, ⟨rfl, rfl⟩, rfl⟩
  | error e => exact .inr ⟨by simp, rfl, rfl, by simp⟩
  | fault => exact .inr ⟨by simp, rfl, rfl, by simp⟩

/-! ## §2. What each statement on a table does when it succeeds. -/

/-- The rows an `UPDATE` leaves, with its events: every row can be computed and
the new rows can be indexed. -/
def UpdateApplies (re : RegexMatch) (stmt : UpdateStatement) (table : TableRuntime)
    (rows : List RowData) (evs : List RowEvent) : Prop :=
  UpdatedRows re table.schema stmt table.heap.rows rows evs ∧
    ∀ n ∈ indexedColumns table.schema, Indexable table.schema n rows

/-- The same for `DELETE`, where the rows kept can always be indexed. -/
def DeleteApplies (re : RegexMatch) (stmt : DeleteStatement) (table : TableRuntime)
    (rows : List RowData) (evs : List RowEvent) : Prop :=
  DeletedRows re table.schema stmt.whereClause table.heap.rows rows evs

/-- The same for `REVERT`: there is a timestamp to go to, and its rows fit the
table. -/
def RevertApplies (stmt : RevertStatement) (d : Str) (table : TableRuntime) (v : VersionStore)
    (rows : List RowData) : Prop :=
  ∃ timestamp, revertTarget stmt d v = .ok (some timestamp) ∧
    rows = reconstructTableStateAt v d stmt.tableName.objectName timestamp ∧
    (∀ r ∈ rows, r.values.length = table.schema.columns.length) ∧
    ∀ n ∈ indexedColumns table.schema, Indexable table.schema n rows

/-- The events of an `UPDATE` up to some row. -/
def UpdateStarts (re : RegexMatch) (stmt : UpdateStatement) (table : TableRuntime)
    (evs : List RowEvent) : Prop :=
  ∃ A B A', table.heap.rows = A ++ B ∧ UpdatedRows re table.schema stmt A A' evs

/-- The events of a `DELETE` up to some row. -/
def DeleteStarts (re : RegexMatch) (stmt : DeleteStatement) (table : TableRuntime)
    (evs : List RowEvent) : Prop :=
  ∃ A B A', table.heap.rows = A ++ B ∧ DeletedRows re table.schema stmt.whereClause A A' evs

/-- The events of a `REVERT` that gets to its loops: all of them. -/
def RevertStarts (stmt : RevertStatement) (d : Str) (table : TableRuntime) (v : VersionStore)
    (evs : List RowEvent) : Prop :=
  ∃ timestamp, revertTarget stmt d v = .ok (some timestamp) ∧
    (∀ r ∈ reconstructTableStateAt v d stmt.tableName.objectName timestamp,
      r.values.length = table.schema.columns.length) ∧
    evs = revertEvents (rowsById table.heap.rows)
      (rowsById (reconstructTableStateAt v d stmt.tableName.objectName timestamp))

theorem UpdatedRows.run {env : Env} {d : Str} {schema : TableSchema} {stmt : UpdateStatement}
    {rows rows' : List RowData} {evs : List RowEvent}
    (h : UpdatedRows env.regexMatch schema stmt rows rows' evs) (v : VersionStore) :
    ∃ n, updateRows env d schema stmt rows v
      = (logEvents env d schema.tableName v evs, .ok (rows', n)) := by
  induction h generalizing v with
  | nil => exact ⟨0, rfl⟩
  | @cons row row' _ _ _ _ h _ ih =>
      cases h with
      | kept h =>
          obtain ⟨n, hn⟩ := ih v
          exact ⟨n, by simp [updateRows, h, hn]⟩
      | changed h =>
          obtain ⟨n, hn⟩ := ih (appendChangeEvent env v .updateRow d schema.tableName none
            (some row) (some row'))
          exact ⟨n + 1, by simp [updateRows, h, hn, logEvents_cons, RowEvent.kind, RowEvent.before,
            RowEvent.after]⟩

theorem DeletedRows.run {env : Env} {d : Str} {schema : TableSchema} {stmt : DeleteStatement}
    {rows rows' : List RowData} {evs : List RowEvent}
    (h : DeletedRows env.regexMatch schema stmt.whereClause rows rows' evs) (v : VersionStore) :
    ∃ n, deleteRows env d schema stmt rows v
      = (logEvents env d schema.tableName v evs, .ok (rows', n)) := by
  induction h generalizing v with
  | nil => exact ⟨0, rfl⟩
  | kept h _ ih =>
      obtain ⟨n, hn⟩ := ih v
      exact ⟨n, by simp [deleteRows, h, hn]⟩
  | @dropped row _ _ _ h _ ih =>
      obtain ⟨n, hn⟩ := ih (appendChangeEvent env v .deleteRow d schema.tableName none
        (some row) none)
      exact ⟨n + 1, by simp [deleteRows, h, hn, logEvents_cons, RowEvent.kind, RowEvent.before,
        RowEvent.after]⟩

/-- What a statement that replaces all rows does: it succeeds with these rows
and events, or it does not succeed and leaves the table, with the log that has
been written by then. -/
def Replaces (table : TableRuntime) (log : List RowEvent → VersionStore)
    (applies : List RowData → List RowEvent → Prop) (starts : List RowEvent → Prop)
    (r : TableRuntime × VersionStore × Result QueryResult) : Prop :=
  (∃ rows evs, applies rows evs ∧ IsReplaced table r.1 rows ∧ r.2.1 = log evs ∧
    ∃ q, r.2.2 = .ok q) ∨
  ((∀ rows evs, ¬ applies rows evs) ∧ r.1 = table ∧ (∀ q, r.2.2 ≠ .ok q) ∧
    ∃ evs, (evs = [] ∨ starts evs) ∧ r.2.1 = log evs)

theorem executeUpdate_replaces (env : Env) (stmt : UpdateStatement) {d t : Str}
    {table : TableRuntime} (h : TableOk d t table) (v : VersionStore) :
    Replaces table (logEvents env d table.schema.tableName v)
      (UpdateApplies env.regexMatch stmt table) (UpdateStarts env.regexMatch stmt table)
      (executeUpdate env stmt d table v) := by
  obtain ⟨A, B, A', evs, hAB, hA, hlog, hend⟩ :=
    updateRows_spec env d table.schema stmt table.heap.scanAll v
  -- an update of all rows goes through the loop to its end
  have hall : ∀ rows evs', UpdatedRows env.regexMatch table.schema stmt table.heap.rows rows evs' →
      ∃ n, updateRows env d table.schema stmt table.heap.scanAll v
        = (logEvents env d table.schema.tableName v evs', .ok (rows, n)) := fun _ _ hU => hU.run v
  rcases hend with ⟨rfl, n, hn⟩ | ⟨row, B', -, -, hne⟩
  · obtain rfl : table.heap.rows = A := by simpa [TableHeap.scanAll] using hAB
    simp only [executeUpdate, hn, hlog]
    rcases replaceRows_cases h (logEvents env d table.schema.tableName v evs) A'
      (str "updated " ++ natToString n ++ str " row(s)") with ⟨hix, hrep, heq⟩ | ⟨hix, htab, hv, hne⟩
    · exact .inl ⟨A', evs, ⟨hA, hix⟩, hrep, by rw [heq], _, by rw [heq]⟩
    · refine .inr ⟨?_, htab, hne, evs, .inr ⟨_, [], A', by simp, hA⟩, hv⟩
      rintro rows evs' ⟨hU, hix'⟩
      obtain ⟨m, hm⟩ := hall rows evs' hU
      rw [hm] at hn
      cases hn
      exact hix hix'
  · refine .inr ⟨?_, ?_, ?_, evs, .inr ⟨A, B, A', hAB, hA⟩, ?_⟩
    · rintro rows evs' ⟨hU, -⟩
      obtain ⟨m, hm⟩ := hall rows evs' hU
      exact hne _ (by rw [hm])
    all_goals
      simp only [executeUpdate]
      generalize updateRows env d table.schema stmt table.heap.scanAll v = r at hne hlog
      obtain ⟨v', res⟩ := r
      obtain rfl : v' = _ := hlog
      cases res with
      | ok p => exact absurd rfl (hne p)
      | error e => simp
      | fault => simp

theorem executeDelete_replaces (env : Env) (stmt : DeleteStatement) {d t : Str}
    {table : TableRuntime} (h : TableOk d t table) (v : VersionStore) :
    Replaces table (logEvents env d table.schema.tableName v)
      (DeleteApplies env.regexMatch stmt table) (DeleteStarts env.regexMatch stmt table)
      (executeDelete env stmt d table v) := by
  obtain ⟨A, B, A', evs, hAB, hA, hlog, hend⟩ :=
    deleteRows_spec env d table.schema stmt table.heap.scanAll v
  rcases hend with ⟨rfl, n, hn⟩ | ⟨row, B', -, -, hne⟩
  · obtain rfl : table.heap.rows = A := by simpa [TableHeap.scanAll] using hAB
    simp only [executeDelete, hn, hlog]
    rcases replaceRows_cases h (logEvents env d table.schema.tableName v evs) A'
      (str "deleted " ++ natToString n ++ str " row(s)") with ⟨hix, hrep, heq⟩ | ⟨hix, -, -, -⟩
    · exact .inl ⟨A', evs, hA, hrep, by rw [heq], _, by rw [heq]⟩
    · exact absurd (fun m hm => indexable_sublist (h.indexable hm) hA.sublist) hix
  · refine .inr ⟨?_, ?_, ?_, evs, .inr ⟨A, B, A', hAB, hA⟩, ?_⟩
    · intro rows evs' hD
      obtain ⟨m, hm⟩ := DeletedRows.run (d := d) hD v
      exact hne _ (by rw [show table.heap.scanAll = table.heap.rows from rfl, hm])
    all_goals
      simp only [executeDelete]
      generalize deleteRows env d table.schema stmt table.heap.scanAll v = r at hne hlog
      obtain ⟨v', res⟩ := r
      obtain rfl : v' = _ := hlog
      cases res with
      | ok p => exact absurd rfl (hne p)
      | error e => simp
      | fault => simp

theorem executeRevert_replaces (env : Env) (stmt : RevertStatement) {d t : Str}
    {table : TableRuntime} (h : TableOk d t table) (v : VersionStore) :
    Replaces table (logEvents env d table.schema.tableName v)
      (fun rows evs => RevertApplies stmt d table v rows ∧
        evs = revertEvents (rowsById table.heap.rows) (rowsById rows))
      (RevertStarts stmt d table v) (executeRevert env stmt d table v) := by
  unfold executeRevert
  cases ht : revertTarget stmt d v with
  | error e =>
      exact .inr ⟨fun rows evs ⟨⟨ts, hts, _⟩, _⟩ => by simp [ht] at hts, rfl, by simp, [],
        .inl rfl, rfl⟩
  | fault =>
      exact .inr ⟨fun rows evs ⟨⟨ts, hts, _⟩, _⟩ => by simp [ht] at hts, rfl, by simp, [],
        .inl rfl, rfl⟩
  | ok target =>
      cases target with
      | none =>
          exact .inr ⟨fun rows evs ⟨⟨ts, hts, _⟩, _⟩ => by simp [ht] at hts, rfl,
            by simp [Result.makeError], [], .inl rfl, rfl⟩
      | some ts =>
          simp only
          generalize hrows : reconstructTableStateAt v d stmt.tableName.objectName ts = rows
          -- any other candidate is this list of rows
          have huniq : ∀ rows', RevertApplies stmt d table v rows' → rows' = rows ∧
              (∀ r ∈ rows, r.values.length = table.schema.columns.length) ∧
              ∀ n ∈ indexedColumns table.schema, Indexable table.schema n rows := by
            rintro rows' ⟨ts', hts', heq, hshape, hix⟩
            rw [ht] at hts'
            cases hts'
            rw [hrows] at heq
            subst heq
            exact ⟨rfl, hshape, hix⟩
          by_cases hany : (rows.any fun row =>
              decide (row.values.length ≠ table.schema.columns.length)) = true
          · rw [if_pos hany]
            refine .inr ⟨?_, rfl, by simp [Result.makeError], [], .inl rfl, rfl⟩
            rintro rows' evs ⟨happ, -⟩
            obtain ⟨-, hshape, -⟩ := huniq rows' happ
            obtain ⟨r, hr, hne⟩ := List.any_eq_true.mp hany
            exact (of_decide_eq_true hne) (hshape r hr)
          · rw [if_neg hany, logRevert_eq]
            have hshape : ∀ r ∈ rows, r.values.length = table.schema.columns.length := by
              intro r hr
              by_contra hne
              exact hany (List.any_eq_true.mpr ⟨r, hr, by simpa using hne⟩)
            rcases replaceRows_cases h (logEvents env d table.schema.tableName v
              (revertEvents (rowsById table.heap.scanAll) (rowsById rows))) rows
              (str "reverted to " ++ ts) with ⟨hix, hrep, heq⟩ | ⟨hix, htab, hv, hne⟩
            · exact .inl ⟨rows, _, ⟨⟨ts, ht, hrows.symm, hshape, hix⟩, rfl⟩, hrep, by rw [heq]; rfl,
                _, by rw [heq]⟩
            · refine .inr ⟨?_, htab, hne, _, .inr ⟨ts, ht, hrows ▸ hshape, rfl⟩, ?_⟩
              · rintro rows' evs ⟨happ, -⟩
                exact hix (huniq rows' happ).2.2
              · rw [hrows]
                exact hv

/-! ## §3. Statements that succeed and change something. -/

/-- **The statement succeeds and changes a table, a row or the log.** -/
def ChangesStore (env : Env) (s : Store) (session : SessionContext) : Statement → Prop
  | .createDatabase name => s.runtime.databases.find? name = none
  | .dropDatabase name => ∃ db, s.runtime.databases.find? name = some db
  | .createTable stmt => ∃ d db, resolveDatabaseName session stmt.tableName.databaseName = .ok d ∧
      s.runtime.databases.find? d = some db ∧ db.tables.find? stmt.tableName.objectName = none
  | .dropTable name => ∃ d db table, OnTable s session name d db table
  | .insert stmt => ∃ d db table map, OnTable s session stmt.tableName d db table ∧
      insertColumnMap table.schema stmt.columnNames = .ok map ∧
      AllAdmissible table map stmt.rows
  | .update stmt => ∃ d db table rows evs, OnTable s session stmt.tableName d db table ∧
      UpdateApplies env.regexMatch stmt table rows evs ∧ evs ≠ []
  | .delete stmt => ∃ d db table rows evs, OnTable s session stmt.tableName d db table ∧
      DeleteApplies env.regexMatch stmt table rows evs ∧ evs ≠ []
  | .revert stmt => ∃ d db table rows, OnTable s session stmt.tableName d db table ∧
      RevertApplies stmt d table s.versions rows ∧ rows ≠ table.heap.rows
  | _ => False

/-- Two stores with the same tables, rows and log. -/
def SameStore (s s' : Store) : Prop := s'.runtime.view = s.runtime.view ∧ s'.versions = s.versions

theorem logEvents_length (env : Env) (d t : Str) (v : VersionStore) (evs : List RowEvent) :
    (logEvents env d t v evs).records.length = v.records.length + evs.length := by
  induction evs generalizing v with
  | nil => rfl
  | cons ev evs ih =>
      rw [logEvents_cons, ih]
      simp [appendChangeEvent, VersionStore.append]
      omega

theorem logEvents_ne {env : Env} {d t : Str} {v : VersionStore} {evs : List RowEvent}
    (h : evs ≠ []) : logEvents env d t v evs ≠ v := by
  intro heq
  have hlen := logEvents_length env d t v evs
  rw [heq] at hlen
  exact h (List.length_eq_zero_iff.mp (by omega))

/-- A store with one more record is another store. -/
theorem not_sameStore_append {env : Env} {s : Store} {rt : RuntimeState} {kind : ChangeKind}
    {d t : Str} {schema : Option TableSchema} {before after : Option RowData} :
    ¬ SameStore s ⟨rt, appendChangeEvent env s.versions kind d t schema before after⟩ := by
  rintro ⟨-, heq⟩
  have hlen := congrArg (fun v : VersionStore => v.records.length) heq
  simp [appendChangeEvent, VersionStore.append] at hlen

/-- What a replaced table does to the view. -/
theorem view_setTable (s : Store) (d t : Str) (table : TableRuntime) :
    (s.setTable d t table).runtime.view
      = s.runtime.view.modify d fun p => (p.1, p.2.modify t fun _ => table.view) := by
  refine Dict.mapVals_modify fun db => ?_
  show (db.name, _) = (db.name, _)
  rw [Dict.mapVals_modify (h := fun _ => table.view) fun _ => rfl]
  rfl

theorem view_setTable_eq {s : Store} {session : SessionContext} {name : QualifiedName} {d : Str}
    {db : DatabaseRuntime} {table table' : TableRuntime} (hon : OnTable s session name d db table) :
    (s.setTable d name.objectName table').runtime.view = s.runtime.view ↔
      table'.view = table.view := by
  constructor
  · intro heq
    have h1 := viewTable_view hon.found hon.table
    have h2 : viewTable (s.setTable d name.objectName table').runtime.view d name.objectName
        = some table'.view := by
      simp [Store.setTable, viewTable, RuntimeState.view, DatabaseRuntime.view, Dict.find?_modify,
        hon.found, hon.table]
    rw [heq, h1] at h2
    exact (Option.some.inj h2).symm
  · intro heq
    rw [view_setTable, heq]
    refine Dict.modify_eq_self fun p hp => ?_
    have hp' : db.view = p := by
      simpa [RuntimeState.view, hon.found] using hp
    rw [← hp']
    have htab : db.view.2.modify name.objectName (fun _ => table.view) = db.view.2 :=
      Dict.modify_eq_self fun tv htv => by simpa [DatabaseRuntime.view, hon.table] using htv
    rw [htab]

/-- A statement that replaces rows, on its store. -/
theorem sameStore_replaces {s : Store} {session : SessionContext} {name : QualifiedName} {d : Str}
    {db : DatabaseRuntime} {table : TableRuntime} (hon : OnTable s session name d db table)
    (hok : TableOk d name.objectName table)
    {f : Str → TableRuntime → VersionStore → TableRuntime × VersionStore × Result QueryResult}
    {log : List RowEvent → VersionStore} {applies : List RowData → List RowEvent → Prop}
    {starts : List RowEvent → Prop}
    (hrep : Replaces table log applies starts (f d table s.versions)) (hlog : log [] = s.versions)
    (hne : ∀ evs, evs ≠ [] → log evs ≠ s.versions)
    (hsame : ∀ rows, applies rows [] → rows = table.heap.rows)
    (huniq : ∀ rows evs rows' evs', applies rows evs → applies rows' evs' → evs = evs') :
    ((∃ q, (withTable s session name f).2 = .ok q) ∧ ¬ SameStore s (withTable s session name f).1) ↔
      ∃ rows evs, applies rows evs ∧ evs ≠ [] := by
  rw [withTable_onTable hon]
  rcases hrep with ⟨rows, evs, happ, ⟨hschema, hheap⟩, hv, hq⟩ | ⟨hno, -, hnq, -⟩
  · constructor
    · rintro ⟨-, hnot⟩
      refine ⟨rows, evs, happ, ?_⟩
      rintro rfl
      refine hnot ⟨(view_setTable_eq hon).mpr ?_, hv.trans hlog⟩
      rw [TableRuntime.view, hschema, hheap, hsame rows happ, ← hok.heap.eq_replaceAll]
      rfl
    · rintro ⟨rows', evs', happ', hne'⟩
      refine ⟨hq, ?_⟩
      rintro ⟨-, hver⟩
      rw [← huniq rows evs rows' evs' happ happ'] at hne'
      exact hne evs hne' (hv.symm.trans hver)
  · constructor
    · rintro ⟨⟨q, hq⟩, -⟩
      exact absurd hq (hnq q)
    · rintro ⟨rows, evs, happ, -⟩
      exact absurd happ (hno rows evs)

theorem UpdatedRows.unique {re : RegexMatch} {schema : TableSchema} {stmt : UpdateStatement}
    {rows rows1 rows2 : List RowData} {evs1 evs2 : List RowEvent}
    (h1 : UpdatedRows re schema stmt rows rows1 evs1)
    (h2 : UpdatedRows re schema stmt rows rows2 evs2) : rows1 = rows2 ∧ evs1 = evs2 := by
  induction h1 generalizing rows2 evs2 with
  | nil =>
      cases h2
      exact ⟨rfl, rfl⟩
  | cons hrow1 _ ih =>
      cases h2 with
      | cons hrow2 hs2 =>
          obtain ⟨hr, he⟩ := ih hs2
          cases hrow1 with
          | kept h =>
              cases hrow2 with
              | kept h' => exact ⟨by rw [hr], by rw [he]⟩
              | changed h' => rw [h] at h'; cases h'
          | changed h =>
              cases hrow2 with
              | kept h' => rw [h] at h'; cases h'
              | changed h' =>
                  rw [h] at h'
                  cases h'
                  exact ⟨by rw [hr], by rw [he]⟩

theorem DeletedRows.unique {re : RegexMatch} {schema : TableSchema} {w : Option Expression}
    {rows rows1 rows2 : List RowData} {evs1 evs2 : List RowEvent}
    (h1 : DeletedRows re schema w rows rows1 evs1) (h2 : DeletedRows re schema w rows rows2 evs2) :
    rows1 = rows2 ∧ evs1 = evs2 := by
  induction h1 generalizing rows2 evs2 with
  | nil =>
      cases h2
      exact ⟨rfl, rfl⟩
  | kept h _ ih =>
      cases h2 with
      | kept _ hs2 =>
          obtain ⟨hr, he⟩ := ih hs2
          exact ⟨by rw [hr], he⟩
      | dropped h' _ => rw [h] at h'; cases h'
  | dropped h _ ih =>
      cases h2 with
      | kept h' _ => rw [h] at h'; cases h'
      | dropped _ hs2 =>
          obtain ⟨hr, he⟩ := ih hs2
          exact ⟨hr, by rw [he]⟩

/-- An `UPDATE` without events keeps all rows. -/
theorem UpdatedRows.eq_of_nil {re : RegexMatch} {schema : TableSchema} {stmt : UpdateStatement}
    {rows rows' : List RowData} (h : UpdatedRows re schema stmt rows rows' []) : rows' = rows := by
  generalize hevs : ([] : List RowEvent) = evs at h
  induction h with
  | nil => rfl
  | cons hrow _ ih =>
      cases hrow with
      | kept h => rw [ih hevs]
      | changed h => cases hevs

/-- A `DELETE` without events keeps all rows. -/
theorem DeletedRows.eq_of_nil {re : RegexMatch} {schema : TableSchema} {w : Option Expression}
    {rows rows' : List RowData} (h : DeletedRows re schema w rows rows' []) : rows' = rows := by
  generalize hevs : ([] : List RowEvent) = evs at h
  induction h with
  | nil => rfl
  | kept h _ ih => rw [ih hevs]
  | dropped _ _ _ => cases hevs

/-- A `REVERT` has no events exactly when it leads back to the same rows. -/
theorem revertEvents_eq_nil {current target : List RowData} (hc : RowsOrdered current)
    (ht : RowsOrdered target) :
    revertEvents (rowsById current) (rowsById target) = [] ↔ target = current := by
  constructor
  · intro hnil
    have hmap := applyEvents_revert hc.nodup ht.nodup
    rw [hnil] at hmap
    exact (rowsOrdered_ext hc ht fun i => congrFun hmap i).symm
  · rintro rfl
    rw [revertEvents, List.append_eq_nil_iff, List.filterMap_eq_nil_iff,
      List.filterMap_eq_nil_iff]
    constructor
    · intro p hp
      have hfind := Dict.mem_entries_iff.mp (show (p.1, p.2) ∈ _ from hp)
      simp [removalEvent, hfind, rowValuesEqual_iff]
    · intro p hp
      have hfind := Dict.mem_entries_iff.mp (show (p.1, p.2) ∈ _ from hp)
      simp [restoreEvent, Dict.contains, hfind]

theorem OnTable.unique {s : Store} {session : SessionContext} {name : QualifiedName} {d d' : Str}
    {db db' : DatabaseRuntime} {table table' : TableRuntime}
    (h : OnTable s session name d db table) (h' : OnTable s session name d' db' table') :
    d = d' ∧ db = db' ∧ table = table' := by
  obtain rfl : d = d' := by simpa using h.database.symm.trans h'.database
  obtain rfl : db = db' := by simpa using h.found.symm.trans h'.found
  exact ⟨rfl, rfl, by simpa using h.table.symm.trans h'.table⟩

/-- The rule for a statement on one table: what happens on the table decides. -/
theorem changes_withTable {s : Store} {session : SessionContext} {name : QualifiedName}
    {f : Str → TableRuntime → VersionStore → TableRuntime × VersionStore × Result QueryResult}
    {P : Str → TableRuntime → Prop}
    (hon : ∀ d db table, OnTable s session name d db table →
      (((∃ q, (withTable s session name f).2 = .ok q) ∧
        ¬ SameStore s (withTable s session name f).1) ↔ P d table)) :
    ((∃ q, (withTable s session name f).2 = .ok q) ∧
      ¬ SameStore s (withTable s session name f).1) ↔
      ∃ d db table, OnTable s session name d db table ∧ P d table := by
  rcases withTable_cases s session name with ⟨d, db, table, h⟩ | ⟨hoff, hsame⟩
  · rw [hon d db table h]
    constructor
    · intro hP
      exact ⟨d, db, table, h, hP⟩
    · rintro ⟨d', db', table', h', hP⟩
      obtain ⟨rfl, -, rfl⟩ := h.unique h'
      exact hP
  · refine iff_of_false ?_ ?_
    · rintro ⟨-, hnot⟩
      rw [hsame] at hnot
      exact hnot ⟨rfl, rfl⟩
    · rintro ⟨d, db, table, h, -⟩
      exact hoff d db table h

theorem changes_insert (env : Env) {s : Store} (h : StoreOk s) (session : SessionContext)
    {stmt : InsertStatement} (hval : validateInsert stmt = .ok ()) {d : Str}
    {db : DatabaseRuntime} {table : TableRuntime} (hon : OnTable s session stmt.tableName d db table) :
    ((∃ q, (withTable s session stmt.tableName (executeInsert env stmt)).2 = .ok q) ∧
      ¬ SameStore s (withTable s session stmt.tableName (executeInsert env stmt)).1) ↔
      ∃ map, insertColumnMap table.schema stmt.columnNames = .ok map ∧
        AllAdmissible table map stmt.rows := by
  have htab := (h.state d db hon.found).tables _ _ hon.table
  rw [withTable_onTable hon]
  simp only [executeInsert]
  cases hmap : insertColumnMap table.schema stmt.columnNames with
  | error e => exact iff_of_false (by simp) (by simp)
  | fault => exact iff_of_false (by simp) (by simp)
  | ok map =>
      obtain ⟨hlen, hlt⟩ := insertColumnMap_ok hmap
      have hrows : ∀ x ∈ stmt.rows, x.length = map.length := by
        intro x hx
        rw [hlen]
        exact validateInsert_rows hval x hx
      obtain ⟨-, hok, -⟩ := insertRows_spec env s.versions htab hrows hlt
      simp only [Result.ok.injEq, exists_eq_left']
      rw [← hok]
      constructor
      · rintro ⟨⟨q, hq⟩, -⟩
        obtain ⟨u, hu, -⟩ := Result.map_eq_ok.mp hq
        exact hu
      · intro hres
        refine ⟨⟨_, by rw [hres]; rfl⟩, ?_⟩
        rintro ⟨hview, -⟩
        have hsame := (view_setTable_eq hon).mp hview
        have hheap := congrArg (fun w : TableView => w.heap.rows) hsame
        -- the statement has a first row, and it has been admitted
        obtain ⟨input, inputs, hcons⟩ := List.exists_cons_of_ne_nil (validateInsert_rows_ne hval)
        have hall := hok.mp hres
        rw [hcons] at hall hrows hheap
        obtain ⟨row, hrow⟩ := hall.first htab
        exact insertRows_first env s.versions htab hrows hlt hrow hheap

/-- **Which statements succeed and change something.** -/
theorem changesStore_iff (env : Env) {s : Store} (h : StoreOk s) (session : SessionContext)
    {statement : Statement} (hval : validateStatement statement = .ok ()) (detail : Str) :
    ((∃ q, (execute env s session statement detail).2.2 = .ok q) ∧
      ¬ SameStore s (execute env s session statement detail).1) ↔
      ChangesStore env s session statement := by
  have hsame : ∀ s', s' = s → SameStore s s' := by
    rintro s' rfl
    exact ⟨rfl, rfl⟩
  have htab : ∀ {name d db table}, OnTable s session name d db table →
      TableOk d name.objectName table := fun hon => (h.state _ _ hon.found).tables _ _ hon.table
  cases statement with
  | createDatabase name =>
      simp only [execute, executeCreateDatabase, ChangesStore]
      by_cases hc : s.runtime.databases.contains name = true
      · rw [if_pos hc]
        refine iff_of_false (by simp [Result.makeError]) ?_
        intro hnone
        simp [Dict.contains, hnone] at hc
      · rw [if_neg hc]
        refine iff_of_true ⟨⟨_, rfl⟩, not_sameStore_append⟩ ?_
        simpa [Dict.contains] using hc
  | dropDatabase name =>
      simp only [execute, executeDropDatabase, ChangesStore]
      by_cases hc : s.runtime.databases.contains name = true
      · rw [if_pos hc]
        refine iff_of_true ⟨⟨_, rfl⟩, not_sameStore_append⟩ ?_
        exact Option.isSome_iff_exists.mp hc
      · rw [if_neg hc]
        refine iff_of_false (by simp [Result.makeError]) ?_
        rintro ⟨db, hdb⟩
        simp [Dict.contains, hdb] at hc
  | createTable stmt =>
      simp only [execute, executeCreateTable, ChangesStore]
      cases hd : resolveDatabaseName session stmt.tableName.databaseName with
      | error e => exact iff_of_false (by simp) (by simp)
      | fault => exact iff_of_false (by simp) (by simp)
      | ok d =>
          cases hdb : s.runtime.databases.find? d with
          | none => exact iff_of_false (by simp [Result.makeError, hdb]) (by simp [hdb])
          | some db =>
              simp only [hdb]
              by_cases hc : db.tables.contains stmt.tableName.objectName = true
              · rw [if_pos hc]
                refine iff_of_false (by simp [Result.makeError]) ?_
                rintro ⟨d', db', hd', hdb', hnone⟩
                cases hd'
                rw [hdb] at hdb'
                cases hdb'
                simp [Dict.contains, hnone] at hc
              · rw [if_neg hc]
                refine iff_of_true
                  ⟨⟨_, rfl⟩, not_sameStore_append⟩ ?_
                exact ⟨d, db, rfl, hdb, by simpa [Dict.contains] using hc⟩
  | dropTable name =>
      simp only [execute, executeDropTable, ChangesStore]
      cases hd : resolveDatabaseName session name.databaseName with
      | error e =>
          refine iff_of_false (by simp) ?_
          rintro ⟨_, _, _, hon⟩
          simp [hon.database] at hd
      | fault =>
          refine iff_of_false (by simp) ?_
          rintro ⟨_, _, _, hon⟩
          simp [hon.database] at hd
      | ok d =>
          have hunfold : ∀ d' db' table', OnTable s session name d' db' table' → d' = d := by
            intro d' db' table' hon
            simpa [hon.database] using hd
          cases hdb : s.runtime.databases.find? d with
          | none =>
              refine iff_of_false (by simp [Result.makeError, hdb]) ?_
              rintro ⟨d', db', table', hon⟩
              obtain rfl := hunfold d' db' table' hon
              simp [hon.found] at hdb
          | some db =>
              cases ht : db.tables.find? name.objectName with
              | none =>
                  refine iff_of_false (by simp [Result.makeError, hdb, ht]) ?_
                  rintro ⟨d', db', table', hon⟩
                  obtain rfl := hunfold d' db' table' hon
                  rw [hon.found] at hdb
                  cases hdb
                  simp [hon.table] at ht
              | some table =>
                  simp only [hdb, ht]
                  exact iff_of_true
                    ⟨⟨_, rfl⟩, not_sameStore_append⟩
                    ⟨d, db, table, hd, hdb, ht⟩
  | insert stmt =>
      refine (changes_withTable fun d db table hon =>
        changes_insert env h session hval hon).trans ?_
      simp [ChangesStore]
  | update stmt =>
      refine (changes_withTable (P := fun d table => ∃ rows evs,
        UpdateApplies env.regexMatch stmt table rows evs ∧ evs ≠ []) ?_).trans ?_
      · intro d db table hon
        exact sameStore_replaces hon (htab hon) (executeUpdate_replaces env stmt (htab hon) _) rfl
          (fun _ => logEvents_ne) (fun _ happ => happ.1.eq_of_nil)
          (fun _ _ _ _ h1 h2 => (h1.1.unique h2.1).2)
      · simp [ChangesStore]
  | delete stmt =>
      refine (changes_withTable (P := fun d table => ∃ rows evs,
        DeleteApplies env.regexMatch stmt table rows evs ∧ evs ≠ []) ?_).trans ?_
      · intro d db table hon
        exact sameStore_replaces hon (htab hon) (executeDelete_replaces env stmt (htab hon) _) rfl
          (fun _ => logEvents_ne) (fun _ happ => DeletedRows.eq_of_nil happ)
          (fun _ _ _ _ h1 h2 => (DeletedRows.unique h1 h2).2)
      · simp [ChangesStore]
  | revert stmt =>
      refine (changes_withTable (P := fun d table => ∃ rows,
        RevertApplies stmt d table s.versions rows ∧ rows ≠ table.heap.rows) ?_).trans ?_
      · intro d db table hon
        have hordered : ∀ rows, RevertApplies stmt d table s.versions rows →
            RowsOrdered rows := by
          rintro rows ⟨ts, -, rfl, -⟩
          exact h.history.reconstruct _ _ _
        have hnil := fun rows happ =>
          revertEvents_eq_nil (htab hon).heap.ordered (hordered rows happ)
        refine (sameStore_replaces hon (htab hon) (executeRevert_replaces env stmt (htab hon) _) rfl
          (fun _ => logEvents_ne) ?_ ?_).trans ?_
        · rintro rows ⟨happ, hevs⟩
          exact (hnil rows happ).mp hevs.symm
        · rintro rows evs rows' evs' ⟨⟨ts, hts, rfl, -⟩, rfl⟩ ⟨⟨ts', hts', rfl, -⟩, rfl⟩
          rw [hts] at hts'
          cases hts'
          rfl
        · constructor
          · rintro ⟨rows, evs, ⟨happ, rfl⟩, hne⟩
            exact ⟨rows, happ, fun heq => hne ((hnil rows happ).mpr heq)⟩
          · rintro ⟨rows, happ, hne⟩
            exact ⟨rows, _, ⟨happ, rfl⟩, fun heq => hne ((hnil rows happ).mp heq)⟩
      · simp [ChangesStore]
  | select stmt =>
      refine iff_of_false ?_ id
      rintro ⟨-, hnot⟩
      refine hnot (hsame _ ?_)
      show (withTable s session stmt.tableName
        fun _ table v => (table, v, executeSelect env stmt table)).1 = s
      rcases withTable_cases s session stmt.tableName with ⟨d, db, table, hon⟩ | ⟨-, hs⟩
      · have hrt := setTable_self hon.found hon.table
        rw [withTable_onTable hon]
        cases s
        simpa using hrt
      · exact hs _
  | rebuildIndex =>
      obtain ⟨s', hrun, -, hview⟩ := rebuildRuntimeIndexes_ok h.state
      refine iff_of_false ?_ id
      rintro ⟨-, hnot⟩
      refine hnot ⟨?_, rfl⟩
      simp only [execute, executeRebuildIndex, hrun]
      exact hview
  | checkIndex => exact iff_of_false (fun hp => hp.2 (hsame _ rfl)) id
  | useDatabase name => exact iff_of_false (fun hp => hp.2 (hsame _ rfl)) id
  | unknown raw => exact iff_of_false (fun hp => hp.2 (hsame _ rfl)) id
  | beginTransaction => exact iff_of_false (fun hp => hp.2 (hsame _ rfl)) id
  | commitTransaction => exact iff_of_false (fun hp => hp.2 (hsame _ rfl)) id
  | rollbackTransaction => exact iff_of_false (fun hp => hp.2 (hsame _ rfl)) id

end CustomDbms.Execution
