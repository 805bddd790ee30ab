/-
  CustomDbms.Execution.StoreInvariant
  ───────────────────────────────────
  **EVERY STATEMENT KEEPS HEAPS AND INDEXES IN STEP.**

  `StoreOk` joins the state invariant with what the change log guarantees of
  its records: rows carry ids, schemas are those of tables.  `INSERT` extends
  the indexes row by row, `UPDATE`, `DELETE` and `REVERT` rebuild them aside;
  in all cases the statement leaves a store that satisfies the invariant,
  whether it succeeds, returns an error or throws (`execute_ok`).
-/
import CustomDbms.Core.StateInvariant
import CustomDbms.Execution.RowEvents
import CustomDbms.Parser.Parser

namespace CustomDbms.Execution

open CustomDbms.Common CustomDbms.Catalog CustomDbms.Core CustomDbms.Index CustomDbms.Lib
open CustomDbms.Parser CustomDbms.Storage CustomDbms.Versioning

/-! ## §1. The records of the log. -/

/-- What a record carries: rows with ids, and the schema of its table. -/
structure RecordOk (r : ChangeRecord) : Prop where
  before : ∀ row, r.beforeRow = some row → row.rowId.isSome
  after : ∀ row, r.afterRow = some row → row.rowId.isSome
  schema : ∀ s, r.schema = some s → SchemaOk r.databaseName r.tableName s

/-- All records of the log are such. -/
def HistoryOk (v : VersionStore) : Prop := ∀ r ∈ v.records, RecordOk r

/-- **The invariant of a store.** -/
structure StoreOk (s : Store) : Prop where
  state : StateOk s.runtime
  history : HistoryOk s.versions

theorem historyOk_empty : HistoryOk VersionStore.empty := by
  intro r hr
  cases hr

theorem HistoryOk.append {v : VersionStore} (h : HistoryOk v) {env : Env} {kind : ChangeKind}
    {d t : Str} {schema : Option TableSchema} {before after : Option RowData}
    (hb : ∀ row, before = some row → row.rowId.isSome)
    (ha : ∀ row, after = some row → row.rowId.isSome)
    (hs : ∀ s, schema = some s → SchemaOk d t s) :
    HistoryOk (appendChangeEvent env v kind d t schema before after) := by
  intro r hr
  simp only [appendChangeEvent, VersionStore.append, if_true] at hr
  rcases List.mem_append.mp hr with hr | hr
  · exact h r hr
  · rw [List.mem_singleton.mp hr]
    exact ⟨hb, ha, hs⟩

/-! ## §2. Rows against the schema. -/

theorem validateValues_length {cs : List Catalog.ColumnDefinition} {vs vs' : List Value}
    (h : validateValues cs vs = .ok vs') : vs'.length = vs.length := by
  induction cs generalizing vs vs' with
  | nil => cases h; rfl
  | cons c cs ih =>
      cases vs with
      | nil => cases h
      | cons v vs =>
          rw [validateValues] at h
          split at h
          · obtain ⟨rest, hrest, heq⟩ := Result.bind_eq_ok.mp h
            cases heq
            simp [ih hrest]
          · cases h

/-- Validation changes values only. -/
theorem validateRowAgainstSchema_ok {row row' : RowData} {schema : TableSchema}
    (h : validateRowAgainstSchema row schema = .ok row') :
    row'.rowId = row.rowId ∧ row'.values.length = row.values.length := by
  obtain ⟨vs, hvs, heq⟩ := Result.bind_eq_ok.mp h
  cases heq
  exact ⟨rfl, validateValues_length hvs⟩

theorem fillRow_length {map : List Nat} {es : List Expression} {vs vs' : List Value}
    (h : fillRow map es vs = .ok vs') : vs'.length = vs.length := by
  induction es generalizing map vs with
  | nil =>
      rw [fillRow] at h
      cases h
      rfl
  | cons e es ih =>
      cases e with
      | literal v =>
          cases map with
          | nil => cases h
          | cons i is =>
              simp only [fillRow] at h
              split at h
              · rw [ih h, List.length_set]
              · cases h
      | _ => simp [fillRow, Result.makeError] at h

/-- A row built by `INSERT` has no id yet and one value for each column. -/
theorem buildInsertRow_ok {schema : TableSchema} {map : List Nat} {input : List Expression}
    {row : RowData} (h : buildInsertRow schema map input = .ok row) :
    row.rowId = none ∧ row.values.length = schema.columns.length := by
  obtain ⟨vs, hvs, hval⟩ := Result.bind_eq_ok.mp h
  obtain ⟨hid, hlen⟩ := validateRowAgainstSchema_ok hval
  refine ⟨hid, ?_⟩
  rw [hlen, show ({ values := vs } : RowData).values = vs from rfl, fillRow_length hvs,
    List.length_replicate]

theorem assignValues_ok {schema : TableSchema} {as : List Assignment} {row row' : RowData}
    (h : assignValues schema as row = .ok row') :
    row'.rowId = row.rowId ∧ row'.values.length = row.values.length := by
  induction as generalizing row with
  | nil => cases h; exact ⟨rfl, rfl⟩
  | cons a as ih =>
      rw [assignValues] at h
      split at h
      · cases h
      · obtain ⟨v, -, hrest⟩ := Result.bind_eq_ok.mp h
        split at hrest
        · obtain ⟨h1, h2⟩ := ih hrest
          exact ⟨h1, by rw [h2, List.length_set]⟩
        · cases hrest

/-- An updated row keeps its id and its length. -/
theorem updateRow_ok {re : RegexMatch} {schema : TableSchema} {stmt : UpdateStatement}
    {row row' : RowData} (h : updateRow re schema stmt row = .ok (some row')) :
    row'.rowId = row.rowId ∧ row'.values.length = row.values.length := by
  obtain ⟨pass, -, h⟩ := Result.bind_eq_ok.mp h
  split at h
  · obtain ⟨r1, h1, h⟩ := Result.bind_eq_ok.mp h
    obtain ⟨r2, h2, h⟩ := Result.bind_eq_ok.mp h
    cases h
    obtain ⟨hid1, hlen1⟩ := assignValues_ok h1
    obtain ⟨hid2, hlen2⟩ := validateRowAgainstSchema_ok h2
    exact ⟨hid2.trans hid1, hlen2.trans hlen1⟩
  · cases h

/-! ## §3. Keys that are looked up first. -/

/-- Keys depend on the values of a row, not on its id. -/
theorem indexKey_withId (schema : TableSchema) (n : Str) (row : RowData) (i : RowId) :
    indexKey schema n { row with rowId := i } = indexKey schema n row := rfl

theorem freshIndexKey_ok {schema : TableSchema} {i : Nat} {row : RowData} {n k : Str}
    {tree : IndexTree} (hi : findColumnIndex schema n = some i)
    (h : freshIndexKey schema i row n tree = .ok k) :
    indexKey schema n row = some k ∧ tree.find k = some [] := by
  obtain ⟨⟨v, c⟩, hcv, h⟩ := Result.bind_eq_ok.mp h
  obtain ⟨hv, hc⟩ := columnValue_eq_ok.mp hcv
  simp only at h
  split at h
  · cases h
  · rename_i hnull
    obtain ⟨key, hkey, h⟩ := Result.bind_eq_ok.mp h
    obtain ⟨found, hfound, h⟩ := Result.bind_eq_ok.mp h
    split at h
    · rename_i hnil
      cases h
      subst hnil
      exact ⟨indexKey_eq_some.mpr ⟨i, c, v, hi, hc, hv, by simpa using hnull,
        Result.ofOption_eq_ok.mp hkey⟩, Result.ofOption_eq_ok.mp hfound⟩
    · cases h

/-- A key that is not found is new. -/
theorem IndexOk.key_new {schema : TableSchema} {rows : List RowData} {n k : Str}
    {tree : IndexTree} (h : IndexOk schema rows n tree) (hfind : tree.find k = some []) :
    ∀ s ∈ rows, indexKey schema n s ≠ some k := by
  rw [h.find k] at hfind
  exact rowsWithKey_eq_nil.mp (by simpa using hfind)

/-- The body of `RebuildIndexes`. -/
theorem checkedIndexEntry_ok {schema : TableSchema} {rows : List RowData} {r : RowData} {n : Str}
    {tree tree' : IndexTree} (h : IndexOk schema rows n tree)
    (hrun : checkedIndexEntry schema r n tree = .ok tree') :
    IndexOk schema (rows ++ [r]) n tree' := by
  rw [checkedIndexEntry] at hrun
  split at hrun
  · cases hrun
  · rename_i i hi
    obtain ⟨k, hk, hins⟩ := Result.bind_eq_ok.mp hrun
    obtain ⟨hkey, hfind⟩ := freshIndexKey_ok hi hk
    obtain ⟨t, ht, hok⟩ := h.insert hkey (IndexOk.key_new h hfind)
    obtain rfl : t = tree' := by simpa [ht] using hins
    exact hok

/-- **The indexes `RebuildIndexes` returns are those of the rows.** -/
theorem rebuildIndexes_ok {d t : Str} {schema : TableSchema} (hs : SchemaOk d t schema)
    {rows : List RowData} {indexes : Dict Str IndexTree}
    (h : rebuildIndexes schema rows = .ok indexes) :
    indexes.keys = indexedColumns schema ∧ IndexesOk schema rows indexes := by
  rw [rebuildIndexes] at h
  split at h
  · rename_i ix hrun
    cases h
    obtain ⟨hok, hkeys⟩ := (indexesOk_empty schema).indexRows
      (fun _ _ _ _ _ hT hf => checkedIndexEntry_ok hT hf) hrun
    exact ⟨hkeys.trans (keys_emptyIndexes hs), by simpa using hok⟩
  · cases h
  · cases h

/-! ## §4. Statements on one table. -/

/-- What a statement leaves of its table and of the log. -/
def OutcomeOk {α : Type} (d t : Str) (r : TableRuntime × VersionStore × Result α) : Prop :=
  TableOk d t r.1 ∧ HistoryOk r.2.1

/-- Replacing all rows of a table. -/
theorem replaceRows_ok {d t : Str} {table : TableRuntime} {v : VersionStore}
    (h : TableOk d t table) (hv : HistoryOk v) {rows : List RowData} (ho : RowsOrdered rows)
    (hshape : ∀ r ∈ rows, r.values.length = table.schema.columns.length) (message : Str) :
    OutcomeOk d t (replaceRows table v rows message) := by
  unfold replaceRows
  split
  · rename_i indexes hrun
    obtain ⟨hkeys, hok⟩ := rebuildIndexes_ok h.schema hrun
    exact ⟨⟨h.schema, heapOk_replaceAll ho, hshape, hkeys, hok⟩, hv⟩
  · exact ⟨h, hv⟩
  · exact ⟨h, hv⟩

/-- The keys of an admitted row are new. -/
theorem admitRow_ok {d t : Str} {table : TableRuntime} (h : TableOk d t table) {map : List Nat}
    {input : List Expression} {row : RowData} (hrow : admitRow table map input = .ok row) :
    row.rowId = none ∧ row.values.length = table.schema.columns.length ∧
      ∀ n tree, (n, tree) ∈ table.indexes.entries →
        ∃ k, indexKey table.schema n row = some k ∧
          ∀ s ∈ table.heap.rows, indexKey table.schema n s ≠ some k := by
  obtain ⟨r, hr, hrow⟩ := Result.bind_eq_ok.mp hrow
  obtain ⟨u, hu, hrow⟩ := Result.bind_eq_ok.mp hrow
  cases hrow
  obtain ⟨hid, hlen⟩ := buildInsertRow_ok hr
  refine ⟨hid, hlen, ?_⟩
  intro n tree hmem
  have hn : n ∈ indexedColumns table.schema := h.keys ▸ List.mem_map_of_mem hmem
  obtain ⟨i, hi⟩ := indexedColumn_found h.schema hn
  have hcheck := Result.forEach_eq_ok.mp hu (n, tree) hmem
  simp only [hi] at hcheck
  obtain ⟨k, hk, -⟩ := Result.bind_eq_ok.mp hcheck
  obtain ⟨hkey, hfind⟩ := freshIndexKey_ok hi hk
  exact ⟨k, hkey, IndexOk.key_new (h.indexes n tree hmem) hfind⟩

/-- **An admitted row is stored in heap and indexes, and logged.** -/
theorem storeRow_ok (env : Env) {d t : Str} {table : TableRuntime} (v : VersionStore)
    (h : TableOk d t table) {row : RowData} (hid : row.rowId = none)
    (hlen : row.values.length = table.schema.columns.length)
    (hnew : ∀ n tree, (n, tree) ∈ table.indexes.entries →
      ∃ k, indexKey table.schema n row = some k ∧
        ∀ s ∈ table.heap.rows, indexKey table.schema n s ≠ some k) :
    ∃ table', storeRow env d table v row = (table',
        appendChangeEvent env v .insertRow d table.schema.tableName none none
          (some { row with rowId := some table.heap.nextRowId }), .ok ()) ∧
      TableOk d t table' ∧ table'.schema = table.schema ∧
      table'.heap.rows = table.heap.rows ++ [{ row with rowId := some table.heap.nextRowId }] := by
  obtain ⟨hheap, hid', hrows⟩ := h.heap.insert_new hid
  have hstep : ∀ n tree, (n, tree) ∈ table.indexes.entries → ∃ tree',
      addIndexEntry table.schema { row with rowId := some table.heap.nextRowId } n tree
        = .ok tree' := by
    intro n tree hmem
    obtain ⟨k, hk, hk'⟩ := hnew n tree hmem
    obtain ⟨tree', hadd, -⟩ := addIndexEntry_ok (h.indexes n tree hmem)
      (r := { row with rowId := some table.heap.nextRowId }) hk hk'
    exact ⟨tree', hadd⟩
  rcases hu : updateIndexes (addIndexEntry table.schema
    { row with rowId := some table.heap.nextRowId }) table.indexes with ⟨ix, res⟩
  have hres : (updateIndexes (addIndexEntry table.schema
    { row with rowId := some table.heap.nextRowId }) table.indexes).2 = .ok () :=
    updateEntries_total hstep
  rw [hu] at hres
  obtain rfl : res = .ok () := hres
  refine ⟨{ table with heap := (table.heap.insert row).1, indexes := ix }, ?_, ⟨h.schema, hheap,
    ?_, ?_, ?_⟩, rfl, hrows⟩
  · simp only [storeRow, hid', hu]
  · intro r hr
    rw [hrows] at hr
    rcases List.mem_append.mp hr with hr | hr
    · exact h.shape r hr
    · rw [List.mem_singleton.mp hr]
      exact hlen
  · have := keys_updateIndexes (addIndexEntry table.schema
      { row with rowId := some table.heap.nextRowId }) table.indexes
    rw [hu] at this
    exact this.trans h.keys
  · rw [hrows]
    intro n tree' hmem
    obtain ⟨tree, ht, hadd⟩ := updateEntries_ok (updateEntries_of_updateIndexes hu) n tree' hmem
    obtain ⟨k, hk, hk'⟩ := hnew n tree ht
    obtain ⟨t', hadd', hok⟩ := addIndexEntry_ok (h.indexes n tree ht)
      (r := { row with rowId := some table.heap.nextRowId }) hk hk'
    obtain rfl : t' = tree' := by simpa using hadd'.symm.trans hadd
    exact hok

theorem insertRows_ok (env : Env) {d t : Str} (map : List Nat) (inputs : List (List Expression))
    {table : TableRuntime} {v : VersionStore} (h : TableOk d t table) (hv : HistoryOk v) :
    OutcomeOk d t (insertRows env d map inputs table v) := by
  induction inputs generalizing table v with
  | nil => exact ⟨h, hv⟩
  | cons input inputs ih =>
      rw [insertRows]
      cases hrow : admitRow table map input with
      | error e => exact ⟨h, hv⟩
      | fault => exact ⟨h, hv⟩
      | ok row =>
          obtain ⟨hid, hlen, hnew⟩ := admitRow_ok h hrow
          obtain ⟨table', hrun, hok, -, -⟩ := storeRow_ok env v h hid hlen hnew
          simp only [hrun]
          refine ih hok (hv.append (by simp) ?_ (by simp))
          intro r hr
          cases hr
          rfl

theorem executeInsert_ok {env : Env} {stmt : InsertStatement} {d t : Str} {table : TableRuntime}
    {v : VersionStore} (h : TableOk d t table) (hv : HistoryOk v) :
    OutcomeOk d t (executeInsert env stmt d table v) := by
  unfold executeInsert
  split
  · exact ⟨h, hv⟩
  · exact ⟨h, hv⟩
  · rename_i map _
    exact insertRows_ok env map stmt.rows h hv

/-- A row event whose rows have ids. -/
def EventOk (ev : RowEvent) : Prop :=
  (∀ row, ev.before = some row → row.rowId.isSome) ∧ ∀ row, ev.after = some row → row.rowId.isSome

theorem HistoryOk.logEvents (env : Env) (d t : Str) {v : VersionStore} (h : HistoryOk v)
    {evs : List RowEvent} (hevs : ∀ ev ∈ evs, EventOk ev) :
    HistoryOk (logEvents env d t v evs) := by
  induction evs generalizing v with
  | nil => exact h
  | cons ev evs ih =>
      rw [logEvents_cons]
      have hev := hevs ev (List.mem_cons_self ..)
      exact ih (h.append hev.1 hev.2 (by simp)) fun e he => hevs e (List.mem_cons_of_mem _ he)

/-- `UPDATE` keeps ids and lengths. -/
theorem UpdatedRows.rows {re : RegexMatch} {schema : TableSchema} {stmt : UpdateStatement}
    {rows rows' : List RowData} {evs : List RowEvent}
    (h : UpdatedRows re schema stmt rows rows' evs) :
    rows'.map (·.rowId) = rows.map (·.rowId) ∧
      rows'.map (·.values.length) = rows.map (·.values.length) := by
  induction h with
  | nil => exact ⟨rfl, rfl⟩
  | cons h _ ih =>
      cases h with
      | kept h => exact ⟨by simp [ih.1], by simp [ih.2]⟩
      | changed h =>
          obtain ⟨hid, hlen⟩ := updateRow_ok h
          exact ⟨by simp [hid, ih.1], by simp [hlen, ih.2]⟩

theorem UpdatedRows.eventsOk {re : RegexMatch} {schema : TableSchema} {stmt : UpdateStatement}
    {rows rows' : List RowData} {evs : List RowEvent}
    (h : UpdatedRows re schema stmt rows rows' evs) (hid : ∀ r ∈ rows, r.rowId.isSome) :
    ∀ ev ∈ evs, EventOk ev := by
  induction h with
  | nil => simp
  | cons h _ ih =>
      intro ev hev
      rcases List.mem_append.mp hev with hev | hev
      · cases h with
        | kept h => cases hev
        | changed h =>
            rw [List.mem_singleton.mp hev]
            have hsome := hid _ (List.mem_cons_self ..)
            refine ⟨?_, ?_⟩
            · rintro r ⟨⟩
              exact hsome
            · rintro r ⟨⟩
              rw [(updateRow_ok h).1]
              exact hsome
      · exact ih (fun r hr => hid r (List.mem_cons_of_mem _ hr)) ev hev

theorem DeletedRows.eventsOk {re : RegexMatch} {schema : TableSchema} {w : Option Expression}
    {rows rows' : List RowData} {evs : List RowEvent}
    (h : DeletedRows re schema w rows rows' evs) (hid : ∀ r ∈ rows, r.rowId.isSome) :
    ∀ ev ∈ evs, EventOk ev := by
  induction h with
  | nil => simp
  | kept _ _ ih => exact ih fun r hr => hid r (List.mem_cons_of_mem _ hr)
  | dropped _ _ ih =>
      intro ev hev
      rcases List.mem_cons.mp hev with rfl | hev
      · refine ⟨?_, ?_⟩
        · rintro r ⟨⟩
          exact hid _ (List.mem_cons_self ..)
        · rintro r ⟨⟩
      · exact ih (fun r hr => hid r (List.mem_cons_of_mem _ hr)) ev hev

theorem forall_length_of_map {rows rows' : List RowData} {n : Nat}
    (h : rows'.map (·.values.length) = rows.map (·.values.length))
    (hrows : ∀ r ∈ rows, r.values.length = n) : ∀ r ∈ rows', r.values.length = n := by
  intro r hr
  have hmem : r.values.length ∈ rows.map (·.values.length) := h ▸ List.mem_map_of_mem hr
  obtain ⟨s, hs, heq⟩ := List.mem_map.mp hmem
  rw [← heq]
  exact hrows s hs

theorem executeUpdate_ok {env : Env} {stmt : UpdateStatement} {d t : Str} {table : TableRuntime}
    {v : VersionStore} (h : TableOk d t table) (hv : HistoryOk v) :
    OutcomeOk d t (executeUpdate env stmt d table v) := by
  obtain ⟨A, B, A', evs, hAB, hA, hlog, hend⟩ :=
    updateRows_spec env d table.schema stmt table.heap.scanAll v
  have hids : ∀ r ∈ A, r.rowId.isSome := fun r hr =>
    h.heap.ordered.1 r (show r ∈ table.heap.scanAll by rw [hAB]; simp [hr])
  have hv' := hv.logEvents env d table.schema.tableName (hA.eventsOk hids)
  rw [← hlog] at hv'
  simp only [executeUpdate]
  rcases hend with ⟨rfl, n, hn⟩ | ⟨row, B', -, -, hne⟩
  · obtain rfl : table.heap.rows = A := by simpa [TableHeap.scanAll] using hAB
    obtain ⟨hid, hlen⟩ := hA.rows
    rw [hn]
    exact replaceRows_ok h hv' (rowsOrdered_congr hid h.heap.ordered)
      (forall_length_of_map hlen h.shape) _
  · split
    · rename_i hr
      exact absurd hr (hne _)
    · exact ⟨h, hv'⟩
    · exact ⟨h, hv'⟩

theorem executeDelete_ok {env : Env} {stmt : DeleteStatement} {d t : Str} {table : TableRuntime}
    {v : VersionStore} (h : TableOk d t table) (hv : HistoryOk v) :
    OutcomeOk d t (executeDelete env stmt d table v) := by
  obtain ⟨A, B, A', evs, hAB, hA, hlog, hend⟩ :=
    deleteRows_spec env d table.schema stmt table.heap.scanAll v
  have hids : ∀ r ∈ A, r.rowId.isSome := fun r hr =>
    h.heap.ordered.1 r (show r ∈ table.heap.scanAll by rw [hAB]; simp [hr])
  have hv' := hv.logEvents env d table.schema.tableName (hA.eventsOk hids)
  rw [← hlog] at hv'
  simp only [executeDelete]
  rcases hend with ⟨rfl, n, hn⟩ | ⟨row, B', -, -, hne⟩
  · obtain rfl : table.heap.rows = A := by simpa [TableHeap.scanAll] using hAB
    rw [hn]
    exact replaceRows_ok h hv' (h.heap.ordered.sublist hA.sublist)
      (fun r hr => h.shape r (hA.sublist.subset hr)) _
  · split
    · rename_i hr
      exact absurd hr (hne _)
    · exact ⟨h, hv'⟩
    · exact ⟨h, hv'⟩

/-! ## §5. Reconstruction. -/

/-- Rows listed under their ids. -/
def Keyed (m : Dict RowId RowData) : Prop :=
  ∀ i row, (i, row) ∈ m.entries → row.rowId = i ∧ i.isSome

theorem keyed_empty : Keyed Dict.empty := by
  intro i row hmem
  cases hmem

theorem Keyed.assign {m : Dict RowId RowData} (h : Keyed m) {row : RowData}
    (hid : row.rowId.isSome) : Keyed (m.assign row.rowId row) := by
  intro i r hmem
  rw [Dict.mem_entries_iff, Dict.find?_assign] at hmem
  split at hmem
  · rename_i hi
    cases hmem
    exact ⟨hi.symm, hi ▸ hid⟩
  · exact h i r (Dict.mem_entries_iff.mpr hmem)

theorem Keyed.erase {m : Dict RowId RowData} (h : Keyed m) (i : RowId) : Keyed (m.erase i) := by
  intro j r hmem
  rw [Dict.mem_entries_iff, Dict.find?_erase] at hmem
  split at hmem
  · cases hmem
  · exact h j r (Dict.mem_entries_iff.mpr hmem)

theorem Keyed.emplace {m : Dict RowId RowData} (h : Keyed m) {row : RowData}
    (hid : row.rowId.isSome) : Keyed (m.emplace row.rowId row) := by
  intro i r hmem
  rcases Dict.mem_emplace hmem with hmem | heq
  · exact h i r hmem
  · cases heq
    exact ⟨rfl, hid⟩

theorem Keyed.applyRecord {m : Dict RowId RowData} (h : Keyed m) {r : ChangeRecord}
    (hr : RecordOk r) : Keyed (applyRecord m r) := by
  unfold Execution.applyRecord
  cases r.kind with
  | createTable => exact keyed_empty
  | dropTable => exact keyed_empty
  | createDatabase => exact h
  | dropDatabase => exact h
  | insertRow | updateRow =>
      cases ha : r.afterRow with
      | none => exact h
      | some row => exact h.assign (hr.after row ha)
  | deleteRow =>
      cases hb : r.beforeRow with
      | none => exact h
      | some row => exact h.erase row.rowId

theorem Keyed.foldl_applyRecord {m : Dict RowId RowData} (h : Keyed m) {rs : List ChangeRecord}
    (hrs : ∀ r ∈ rs, RecordOk r) : Keyed (rs.foldl Execution.applyRecord m) := by
  induction rs generalizing m with
  | nil => exact h
  | cons r rs ih =>
      exact ih (h.applyRecord (hrs r (by simp))) fun x hx => hrs x (by simp [hx])

/-- The order `ReconstructTableStateAt` sorts by. -/
def RowLe (r s : RowData) : Prop := rowIdLe r.rowId s.rowId = true

theorem rowIdLe_total (i j : RowId) : rowIdLe i j = true ∨ rowIdLe j i = true := by
  cases i <;> cases j <;> simp [rowIdLe]
  omega

theorem rowIdLe_trans {i j k : RowId} (h1 : rowIdLe i j = true) (h2 : rowIdLe j k = true) :
    rowIdLe i k = true := by
  cases i <;> cases j <;> cases k <;> simp_all [rowIdLe]
  omega

instance : Std.Total RowLe := ⟨fun r s => rowIdLe_total r.rowId s.rowId⟩

instance : IsTrans RowData RowLe := ⟨fun _ _ _ h1 h2 => rowIdLe_trans h1 h2⟩

instance : DecidableRel RowLe := fun r s => inferInstanceAs (Decidable (rowIdLe r.rowId s.rowId = true))

theorem sortedRows_perm (m : Dict RowId RowData) :
    (sortedRows m).Perm (m.entries.map Prod.snd) :=
  List.perm_insertionSort RowLe _

/-- **Sorted rows are in id order.** -/
theorem Keyed.rowsOrdered {m : Dict RowId RowData} (h : Keyed m) : RowsOrdered (sortedRows m) := by
  have hperm := sortedRows_perm m
  have hmem : ∀ r ∈ sortedRows m, (r.rowId, r) ∈ m.entries := by
    intro r hr
    obtain ⟨⟨i, r'⟩, hp, rfl⟩ := List.mem_map.mp (hperm.mem_iff.mp hr)
    rw [show (r'.rowId, r') = (i, r') by rw [(h i r' hp).1]]
    exact hp
  have hids : (m.entries.map Prod.snd).map (·.rowId) = m.entries.map Prod.fst := by
    rw [List.map_map]
    refine List.map_congr_left ?_
    rintro ⟨i, r⟩ hp
    exact (h i r hp).1
  have hnd : ((sortedRows m).map (·.rowId)).Nodup := by
    rw [(hperm.map _).nodup_iff, hids]
    exact m.nodup
  refine ⟨fun r hr => (h r.rowId r (hmem r hr)).2, ?_⟩
  have hsorted : (sortedRows m).Pairwise RowLe := List.pairwise_insertionSort RowLe _
  rw [List.Nodup, List.pairwise_map] at hnd
  refine (hsorted.and hnd).imp ?_
  rintro r s ⟨hle, hne⟩ i hi j hj
  rw [RowLe, hi, hj] at hle
  rw [hi, hj] at hne
  have hij : i ≤ j := by simpa [rowIdLe] using hle
  have : i ≠ j := by simpa using hne
  omega

/-- **Reconstructed rows are in id order.** -/
theorem HistoryOk.reconstruct {v : VersionStore} (h : HistoryOk v) (d t ts : Str) :
    RowsOrdered (reconstructTableStateAt v d t ts) := by
  refine Keyed.rowsOrdered (keyed_empty.foldl_applyRecord ?_)
  intro r hr
  exact h r (List.mem_filter.mp (List.mem_filter.mp hr).1).1

theorem mem_rowsById {rows : List RowData} {p : RowId × RowData}
    (h : p ∈ (rowsById rows).entries) : p.2 ∈ rows ∧ p.1 = p.2.rowId := by
  have key : ∀ (l : List RowData) (m : Dict RowId RowData),
      p ∈ (l.foldl (fun m row => m.emplace row.rowId row) m).entries →
      p ∈ m.entries ∨ (p.2 ∈ l ∧ p.1 = p.2.rowId) := by
    intro l
    induction l with
    | nil => exact fun m hm => .inl hm
    | cons r l ih =>
        intro m hm
        rcases ih _ hm with hm | ⟨hmem, heq⟩
        · rcases Dict.mem_emplace hm with hm | rfl
          · exact .inl hm
          · exact .inr ⟨by simp, rfl⟩
        · exact .inr ⟨by simp [hmem], heq⟩
  rcases key rows Dict.empty h with hm | hm
  · cases hm
  · exact hm

/-- The events of a `REVERT` are about rows with ids. -/
theorem revertEvents_ok {current target : List RowData} (hc : ∀ r ∈ current, r.rowId.isSome)
    (ht : ∀ r ∈ target, r.rowId.isSome) :
    ∀ ev ∈ revertEvents (rowsById current) (rowsById target), EventOk ev := by
  intro ev hev
  rcases List.mem_append.mp hev with hev | hev
  · obtain ⟨p, hp, hev⟩ := List.mem_filterMap.mp hev
    have hsome := hc p.2 (mem_rowsById hp).1
    unfold removalEvent at hev
    split at hev
    · cases hev
      refine ⟨?_, ?_⟩
      · rintro r ⟨⟩
        exact hsome
      · rintro r ⟨⟩
    · rename_i row hfind
      split at hev
      · cases hev
      · cases hev
        refine ⟨?_, ?_⟩
        · rintro r ⟨⟩
          exact hsome
        · rintro r ⟨⟩
          exact ht _ (mem_rowsById (Dict.mem_entries_iff.mpr hfind)).1
  · obtain ⟨p, hp, hev⟩ := List.mem_filterMap.mp hev
    unfold restoreEvent at hev
    split at hev
    · cases hev
    · cases hev
      refine ⟨?_, ?_⟩
      · rintro r ⟨⟩
      · rintro r ⟨⟩
        exact ht p.2 (mem_rowsById hp).1

theorem executeRevert_ok {env : Env} {stmt : RevertStatement} {d t : Str} {table : TableRuntime}
    {v : VersionStore} (h : TableOk d t table) (hv : HistoryOk v) :
    OutcomeOk d t (executeRevert env stmt d table v) := by
  unfold executeRevert
  split
  · exact ⟨h, hv⟩
  · exact ⟨h, hv⟩
  · exact ⟨h, hv⟩
  · rename_i ts _
    have ho := hv.reconstruct d stmt.tableName.objectName ts
    generalize reconstructTableStateAt v d stmt.tableName.objectName ts = rows at ho ⊢
    simp only
    split
    · exact ⟨h, hv⟩
    · rename_i hshape
      rw [logRevert_eq]
      refine replaceRows_ok h (hv.logEvents env d _ (revertEvents_ok h.heap.ordered.1 ho.1)) ho ?_ _
      intro r hr
      by_contra hne
      exact hshape (List.any_eq_true.mpr ⟨r, hr, by simpa using hne⟩)

/-! ## §6. Statements on the store. -/

/-- Replacing a table by one that is in step. -/
theorem stateOk_setTable {s : Store} (h : StateOk s.runtime) {d t : Str} {table : TableRuntime}
    (htable : TableOk d t table) : StateOk (s.setTable d t table).runtime := by
  refine stateOk_modify h fun db hdb => ⟨(h d db hdb).name, ?_⟩
  intro x tb htb
  rw [Dict.find?_modify] at htb
  split at htb
  · rename_i hx
    subst hx
    obtain ⟨tb0, -, rfl⟩ := Option.map_eq_some_iff.mp htb
    exact htable
  · exact (h d db hdb).tables x tb htb

/-- The rule for a statement on one table. -/
theorem withTable_ok {s : Store} (h : StoreOk s) (session : SessionContext) (name : QualifiedName)
    {f : Str → TableRuntime → VersionStore → TableRuntime × VersionStore × Result QueryResult}
    (hf : ∀ d table v, TableOk d name.objectName table → HistoryOk v →
      OutcomeOk d name.objectName (f d table v)) :
    StoreOk (withTable s session name f).1 := by
  unfold withTable
  split
  · exact h
  · exact h
  · rename_i d _
    split
    · exact h
    · rename_i db hdb
      split
      · exact h
      · rename_i table htable
        obtain ⟨htab, hhist⟩ := hf d table s.versions ((h.state d db hdb).tables _ _ htable) h.history
        exact ⟨stateOk_setTable h.state htab, hhist⟩

theorem executeCreateDatabase_ok {env : Env} {s : Store} (h : StoreOk s) (name : Str) :
    StoreOk (executeCreateDatabase env s name).1 := by
  unfold executeCreateDatabase
  split
  · exact h
  · rename_i hnot
    have hnone : s.runtime.databases.find? name = none := by
      simpa [Dict.contains] using hnot
    refine ⟨?_, h.history.append (by simp) (by simp) (by simp)⟩
    intro n d hd
    rw [Dict.find?_emplace hnone] at hd
    split at hd
    · rename_i hn
      cases hd
      exact ⟨hn.symm, fun t table ht => by cases ht⟩
    · exact h.state n d hd

theorem executeDropDatabase_ok {env : Env} {s : Store} (h : StoreOk s) (session : SessionContext)
    (name : Str) : StoreOk (executeDropDatabase env s session name).1 := by
  unfold executeDropDatabase
  split
  · refine ⟨?_, h.history.append (by simp) (by simp) (by simp)⟩
    intro n d hd
    rw [Dict.find?_erase] at hd
    split at hd
    · cases hd
    · exact h.state n d hd
  · exact h

/-- Validated columns have different names. -/
theorem validateColumns_nodup {seen : List Str} {cols : List Parser.ColumnDefinition}
    (h : validateColumns seen cols = .ok ()) :
    (cols.map (·.name)).Nodup ∧ ∀ c ∈ cols, c.name ∉ seen := by
  induction cols generalizing seen with
  | nil => simp
  | cons c cols ih =>
      rw [validateColumns] at h
      by_cases hseen : c.name ∈ seen
      · rw [if_pos hseen] at h
        cases h
      · rw [if_neg hseen] at h
        have hrest : validateColumns (c.name :: seen) cols = .ok () := by
          revert h
          cases c.defaultValue with
          | none => exact id
          | some v =>
              simp only
              split
              · intro h
                cases h
              · exact id
        obtain ⟨hnd, hnot⟩ := ih hrest
        refine ⟨?_, ?_⟩
        · rw [List.map_cons, List.nodup_cons]
          refine ⟨?_, hnd⟩
          intro hmem
          obtain ⟨x, hx, heq⟩ := List.mem_map.mp hmem
          exact hnot x hx (by rw [heq]; simp)
        · intro x hx
          rcases List.mem_cons.mp hx with rfl | hx
          · exact hseen
          · exact fun hmem => hnot x hx (List.mem_cons_of_mem _ hmem)

theorem constraintOf_eq_indexed (col : Parser.ColumnDefinition) :
    constraintOf col = .indexed ↔ col.indexed = true := by
  unfold constraintOf
  cases col.indexed <;> cases col.notNull <;> simp

/-- The schema of a validated `CREATE TABLE`. -/
theorem schemaOk_schemaOf {stmt : CreateTableStatement} (h : validateCreateTable stmt = .ok ())
    (d : Str) : SchemaOk d stmt.tableName.objectName (schemaOf d stmt) := by
  unfold validateCreateTable at h
  split at h
  · cases h
  · rename_i hne
    obtain ⟨hnd, -⟩ := validateColumns_nodup h
    refine ⟨rfl, rfl, by simpa [schemaOf] using hne, ?_, ?_⟩
    · simpa [schemaOf, List.map_map, Function.comp_def] using hnd
    · simp only [schemaOf, List.filter_map, List.map_map, Function.comp_def,
        constraintOf_eq_indexed]
      simp

theorem tableOk_tableOf {d t : Str} {schema : TableSchema} (h : SchemaOk d t schema) :
    TableOk d t (tableOf schema) :=
  ⟨h, heapOk_new, by simp [tableOf, TableHeap.new], keys_emptyIndexes h, indexesOk_empty schema⟩

theorem executeCreateTable_ok {env : Env} {s : Store} (h : StoreOk s) (session : SessionContext)
    {stmt : CreateTableStatement} (hstmt : validateCreateTable stmt = .ok ()) :
    StoreOk (executeCreateTable env s session stmt).1 := by
  unfold executeCreateTable
  split
  · exact h
  · exact h
  · rename_i d _
    split
    · exact h
    · rename_i db hdb
      split
      · exact h
      · rename_i hnot
        have hnone : db.tables.find? stmt.tableName.objectName = none := by
          simpa [Dict.contains] using hnot
        have hschema := schemaOk_schemaOf hstmt d
        refine ⟨stateOk_modify h.state ?_, h.history.append (by simp) (by simp) ?_⟩
        · intro db' hdb'
          obtain rfl : db = db' := by simpa using hdb.symm.trans hdb'
          refine ⟨(h.state d db hdb).name, ?_⟩
          intro x table hx
          simp only [schemaOf, Dict.find?_emplace hnone] at hx
          split at hx
          · rename_i heq
            cases hx
            rw [heq]
            exact tableOk_tableOf hschema
          · exact (h.state d db hdb).tables x table hx
        · rintro s' ⟨⟩
          exact hschema

theorem executeDropTable_ok {env : Env} {s : Store} (h : StoreOk s) (session : SessionContext)
    (name : QualifiedName) : StoreOk (executeDropTable env s session name).1 := by
  unfold executeDropTable
  split
  · exact h
  · exact h
  · rename_i d _
    split
    · exact h
    · rename_i db hdb
      split
      · exact h
      · rename_i table htable
        refine ⟨stateOk_modify h.state ?_, h.history.append (by simp) (by simp) ?_⟩
        · intro db' hdb'
          refine ⟨(h.state d db' hdb').name, ?_⟩
          intro x tb hx
          rw [Dict.find?_erase] at hx
          split at hx
          · cases hx
          · exact (h.state d db' hdb').tables x tb hx
        · rintro s' ⟨⟩
          exact ((h.state d db hdb).tables _ _ htable).schema

theorem executeRebuildIndex_ok {s : Store} (h : StoreOk s) :
    StoreOk (executeRebuildIndex s).1 := by
  obtain ⟨s', hrun, hok, -⟩ := rebuildRuntimeIndexes_ok h.state
  rw [executeRebuildIndex, hrun]
  exact ⟨hok, h.history⟩

/-- **Every statement keeps the invariant**, whatever it returns. -/
theorem execute_ok {env : Env} {s : Store} (h : StoreOk s) (session : SessionContext)
    {statement : Statement} (hval : validateStatement statement = .ok ()) (detail : Str) :
    StoreOk (execute env s session statement detail).1 := by
  cases statement with
  | createDatabase name => exact executeCreateDatabase_ok h name
  | useDatabase name => exact h
  | dropDatabase name => exact executeDropDatabase_ok h session name
  | createTable stmt => exact executeCreateTable_ok h session hval
  | dropTable name => exact executeDropTable_ok h session name
  | insert stmt => exact withTable_ok h session _ fun _ _ _ => executeInsert_ok
  | update stmt => exact withTable_ok h session _ fun _ _ _ => executeUpdate_ok
  | delete stmt => exact withTable_ok h session _ fun _ _ _ => executeDelete_ok
  | select stmt => exact withTable_ok h session _ fun _ _ _ ht hv => ⟨ht, hv⟩
  | revert stmt => exact withTable_ok h session _ fun _ _ _ => executeRevert_ok
  | checkIndex => exact h
  | rebuildIndex => exact executeRebuildIndex_ok h
  | unknown raw => exact h
  | beginTransaction => exact h
  | commitTransaction => exact h
  | rollbackTransaction => exact h

end CustomDbms.Execution
