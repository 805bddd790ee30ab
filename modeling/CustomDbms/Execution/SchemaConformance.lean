/-
  CustomDbms.Execution.SchemaConformance
  ──────────────────────────────────────
  **ROWS FIT THEIR SCHEMA.**

  INSERT and UPDATE validate every row they write; DELETE writes none.  REVERT
  writes rows of the log, and the log outlives the table: records of an
  earlier table of the same name are records of its name too.  Replaying a
  log starts anew at every CREATE TABLE record, so a REVERT that goes back
  behind the last one (`revertsPastCreation`) is the one statement that can
  bring a row of another schema.

    • `reconstruct_incarnation` — a REVERT that does not go behind it finds
      rows logged since the last CREATE TABLE only;
    • `execute_fits` — the step lemma.
-/
import CustomDbms.Execution.HistoryAgreement

namespace CustomDbms.Execution

open CustomDbms.Common CustomDbms.Catalog CustomDbms.Core CustomDbms.Index CustomDbms.Lib
open CustomDbms.Parser CustomDbms.Storage CustomDbms.Versioning

/-! ## §1. Rows and columns. -/

/-- One value for each column, each taken by its column. -/
structure Fits (schema : TableSchema) (row : RowData) : Prop where
  length : row.values.length = schema.columns.length
  values : ∀ (i : Nat) (c : Catalog.ColumnDefinition) (v : Value), schema.columns[i]? = some c →
    row.values[i]? = some v → canAssignToType v c.type (allowsNull c) = true

/-- A value a column takes has its type, or is NULL where NULL is allowed. -/
theorem typed_of_canAssign {c : Catalog.ColumnDefinition} {v : Value}
    (h : canAssignToType v c.type (allowsNull c) = true) :
    getValueType v = c.type ∨ (v = .null ∧ c.constraint ≠ .notNull ∧ c.constraint ≠ .indexed) := by
  rw [canAssignToType] at h
  cases v with
  | null => exact Or.inr ⟨rfl, by simpa [allowsNull] using h⟩
  | int a => exact Or.inl (by simpa using h)
  | string s => exact Or.inl (by simpa using h)

theorem validateRowAgainstSchema_fits {row row' : RowData} {schema : TableSchema}
    (hlen : row.values.length = schema.columns.length)
    (h : validateRowAgainstSchema row schema = .ok row') : Fits schema row' := by
  obtain ⟨vs, hvs, heq⟩ := Result.bind_eq_ok.mp h
  cases heq
  refine ⟨(validateValues_length hvs).trans hlen, ?_⟩
  intro i c v hc hv
  exact validateValues_fits hvs hc hv

/-- **A row that INSERT admits fits.** -/
theorem admitRow_fits {table : TableRuntime} {map : List Nat} {input : List Expression}
    {row : RowData} (h : admitRow table map input = .ok row) : Fits table.schema row := by
  obtain ⟨built, hbuilt, h⟩ := Result.bind_eq_ok.mp h
  obtain ⟨_, -, heq⟩ := Result.bind_eq_ok.mp h
  cases heq
  obtain ⟨vs, hvs, hval⟩ := Result.bind_eq_ok.mp hbuilt
  refine validateRowAgainstSchema_fits ?_ hval
  show vs.length = _
  rw [fillRow_length hvs, List.length_replicate]

/-- **A row that UPDATE changes fits.** -/
theorem updateRow_fits {re : RegexMatch} {schema : TableSchema} {stmt : UpdateStatement}
    {row row' : RowData} (hlen : row.values.length = schema.columns.length)
    (h : updateRow re schema stmt row = .ok (some row')) : Fits schema row' := by
  obtain ⟨pass, -, h⟩ := Result.bind_eq_ok.mp h
  split at h
  · obtain ⟨r1, h1, h⟩ := Result.bind_eq_ok.mp h
    obtain ⟨r2, h2, h⟩ := Result.bind_eq_ok.mp h
    cases h
    exact validateRowAgainstSchema_fits ((assignValues_ok h1).2.trans hlen) h2
  · cases h

/-! ## §2. The records of one table of a name. -/

/-- The records behind the last CREATE TABLE. -/
def incarnation (records : List ChangeRecord) : List ChangeRecord :=
  records.foldl (fun acc r => if r.kind = .createTable then [] else acc ++ [r]) []

theorem incarnation_append (records : List ChangeRecord) (r : ChangeRecord) :
    incarnation (records ++ [r])
      = if r.kind = .createTable then [] else incarnation records ++ [r] := by
  rw [incarnation, List.foldl_append]
  rfl

/-- What one record adds to the rows of a table. -/
theorem mem_applyRecord {m : Dict RowId RowData} {r : ChangeRecord} {p : RowId × RowData}
    (h : p ∈ (applyRecord m r).entries) :
    r.kind ≠ .createTable ∧ (p ∈ m.entries ∨ r.afterRow = some p.2) := by
  unfold applyRecord at h
  cases hk : r.kind with
  | createTable => rw [hk] at h; cases h
  | dropTable => rw [hk] at h; cases h
  | insertRow | updateRow =>
      rw [hk] at h
      refine ⟨by simp, ?_⟩
      cases ha : r.afterRow with
      | none =>
          rw [ha] at h
          exact Or.inl h
      | some row =>
          rw [ha] at h
          have hp : (m.assign row.rowId row).find? p.1 = some p.2 := Dict.mem_entries_iff.mp h
          rw [Dict.find?_assign] at hp
          split at hp
          · exact Or.inr hp
          · exact Or.inl (Dict.mem_entries_iff.mpr hp)
  | deleteRow =>
      rw [hk] at h
      refine ⟨by simp, ?_⟩
      cases hb : r.beforeRow with
      | none =>
          rw [hb] at h
          exact Or.inl h
      | some row =>
          rw [hb] at h
          have hp : (m.erase row.rowId).find? p.1 = some p.2 := Dict.mem_entries_iff.mp h
          rw [Dict.find?_erase] at hp
          split at hp
          · cases hp
          · exact Or.inl (Dict.mem_entries_iff.mpr hp)
  | createDatabase | dropDatabase =>
      rw [hk] at h
      exact ⟨by simp, Or.inl h⟩

/-- **A state that includes the last CREATE TABLE holds rows logged since.** -/
theorem reconstruct_incarnation {v : VersionStore} {d t ts : Str}
    (hcreate : ∀ r ∈ v.historyForTable d t, r.kind = .createTable → r.timestamp ≤ ts) :
    ∀ row ∈ reconstructTableStateAt v d t ts,
      ∃ r ∈ incarnation (v.historyForTable d t), r.afterRow = some row := by
  have key : ∀ records : List ChangeRecord,
      (∀ r ∈ records, r.kind = .createTable → r.timestamp ≤ ts) →
      ∀ p ∈ ((records.filter fun r => !decide (ts < r.timestamp)).foldl applyRecord
        Dict.empty).entries, ∃ r ∈ incarnation records, r.afterRow = some p.2 := by
    intro records
    induction records using List.reverseRecOn with
    | nil =>
        intro _ p hp
        cases hp
    | append_singleton records r ih =>
        intro hall p hp
        have hprev := ih fun x hx => hall x (List.mem_append_left _ hx)
        rw [List.filter_append, List.foldl_append] at hp
        rw [incarnation_append]
        by_cases hts : ts < r.timestamp
        · -- a record that is left out is no CREATE TABLE
          have hk : r.kind ≠ .createTable := by
            intro hk
            exact absurd (hall r (by simp) hk) (not_le.mpr hts)
          rw [if_neg hk]
          simp only [hts, decide_true, Bool.not_true, List.filter_cons, List.filter_nil,
            Bool.false_eq_true, if_false, List.foldl_nil] at hp
          obtain ⟨x, hx, hxp⟩ := hprev p hp
          exact ⟨x, List.mem_append_left _ hx, hxp⟩
        · simp only [hts, decide_false, Bool.not_false, List.filter_cons, List.filter_nil,
            if_true, List.foldl_cons, List.foldl_nil] at hp
          obtain ⟨hk, hp | hp⟩ := mem_applyRecord hp
          · rw [if_neg hk]
            obtain ⟨x, hx, hxp⟩ := hprev p hp
            exact ⟨x, List.mem_append_left _ hx, hxp⟩
          · rw [if_neg hk]
            exact ⟨r, by simp, hp⟩
  intro row hrow
  obtain ⟨p, hp, rfl⟩ := List.mem_map.mp ((sortedRows_perm _).mem_iff.mp hrow)
  exact key _ hcreate p hp

/-! ## §3. Tables and their records. -/

/-- The rows of the table fit its schema, and so do the rows logged since it
was created. -/
structure FitsTable (v : VersionStore) (d t : Str) (w : TableView) : Prop where
  rows : ∀ row ∈ w.heap.rows, Fits w.schema row
  records : ∀ r ∈ incarnation (v.historyForTable d t), ∀ row ∈ r.afterRow, Fits w.schema row

/-- A row event whose row fits. -/
def EventFits (schema : TableSchema) (ev : RowEvent) : Prop := ∀ row ∈ ev.after, Fits schema row

theorem fitsTable_local (env : Env) : Local env FitsTable := by
  intro v kind d t schema before after d' t' w hne h
  obtain ⟨r, -, -, -, hh⟩ :=
    historyForTable_appendChangeEvent env v kind d t schema before after d' t'
  rw [if_neg hne, List.append_nil] at hh
  exact ⟨h.rows, hh ▸ h.records⟩

theorem fitsTable_new (env : Env) : HoldsNew env FitsTable := by
  intro v d t schema
  obtain ⟨r, hk, -, -, hh⟩ :=
    historyForTable_appendChangeEvent env v .createTable d t (some schema) none none d t
  rw [if_pos ⟨rfl, rfl⟩] at hh
  refine ⟨by simp [tableOf, TableRuntime.view, TableHeap.new], ?_⟩
  rw [hh, incarnation_append, if_pos hk]
  simp

theorem logEvents_records (env : Env) {v : VersionStore} {d t : Str} {schema : TableSchema}
    {evs : List RowEvent} (hevs : ∀ ev ∈ evs, EventFits schema ev)
    (h : ∀ r ∈ incarnation (v.historyForTable d t), ∀ row ∈ r.afterRow, Fits schema row) :
    ∀ r ∈ incarnation ((logEvents env d t v evs).historyForTable d t),
      ∀ row ∈ r.afterRow, Fits schema row := by
  induction evs generalizing v with
  | nil => exact h
  | cons ev evs ih =>
      rw [logEvents_cons]
      apply ih fun e he => hevs e (by simp [he])
      obtain ⟨r, hk, -, ha, hh⟩ :=
        historyForTable_appendChangeEvent env v ev.kind d t none ev.before ev.after d t
      have hrow : r.kind ≠ .createTable := by
        rw [hk]
        cases ev <;> simp [RowEvent.kind]
      rw [hh, if_pos ⟨rfl, rfl⟩, incarnation_append, if_neg hrow]
      intro x hx row hrowx
      rcases List.mem_append.mp hx with hx | hx
      · exact h x hx row hrowx
      · rw [List.mem_singleton.mp hx, ha] at hrowx
        exact hevs ev (by simp) row hrowx

/-- What a statement leaves of a table: rows and events that fit. -/
theorem FitsTable.leaves {env : Env} {d t : Str} {table table' : TableRuntime}
    {v : VersionStore} (h : FitsTable v d t table.view) (hschema : table'.schema = table.schema)
    (hrows : ∀ row ∈ table'.heap.rows, Fits table.schema row) {evs : List RowEvent}
    (hevs : ∀ ev ∈ evs, EventFits table.schema ev) :
    FitsTable (logEvents env d t v evs) d t table'.view := by
  constructor
  · intro row hrow
    show Fits table'.schema row
    rw [hschema]
    exact hrows row hrow
  · show ∀ r ∈ incarnation ((logEvents env d t v evs).historyForTable d t),
      ∀ row ∈ r.afterRow, Fits table'.schema row
    rw [hschema]
    exact logEvents_records env hevs h.records

/-! ## §4. Statements on one table. -/

section Statements

variable {env : Env} {d t : Str} {table : TableRuntime} {v : VersionStore}

/-- What a statement on a table leaves: the schema, rows that fit, and events
whose rows fit. -/
def LeavesFitting {α : Type} (env : Env) (d t : Str) (table : TableRuntime) (v : VersionStore)
    (r : TableRuntime × VersionStore × Result α) : Prop :=
  ∃ evs, r.2.1 = logEvents env d t v evs ∧ (∀ ev ∈ evs, EventFits table.schema ev) ∧
    r.1.schema = table.schema ∧ ∀ row ∈ r.1.heap.rows, Fits table.schema row

theorem leavesFitting_same {α : Type} (hfit : ∀ row ∈ table.heap.rows, Fits table.schema row)
    (res : Result α) : LeavesFitting env d t table v (table, v, res) :=
  ⟨[], rfl, by simp, rfl, hfit⟩

theorem insertRows_fits (h : TableOk d t table) (map : List Nat)
    (inputs : List (List Expression))
    (hfit : ∀ row ∈ table.heap.rows, Fits table.schema row) :
    LeavesFitting env d t table v (insertRows env d map inputs table v) := by
  induction inputs generalizing table v with
  | nil => exact leavesFitting_same hfit _
  | cons input inputs ih =>
      rw [insertRows]
      cases hrow : admitRow table map input with
      | error e => exact leavesFitting_same hfit _
      | fault => exact leavesFitting_same hfit _
      | ok row =>
          obtain ⟨hid, hlen, hnew⟩ := admitRow_ok h hrow
          obtain ⟨table', hrun, hok, hschema, hrows⟩ := storeRow_ok env v h hid hlen hnew
          -- the stored row is the admitted one under a new id
          have hstored : Fits table.schema { row with rowId := some table.heap.nextRowId } :=
            ⟨(admitRow_fits hrow).length, (admitRow_fits hrow).values⟩
          have hfit' : ∀ r ∈ table'.heap.rows, Fits table'.schema r := by
            rw [hrows, hschema]
            intro r hr
            rcases List.mem_append.mp hr with hr | hr
            · exact hfit r hr
            · rw [List.mem_singleton.mp hr]
              exact hstored
          obtain ⟨evs, hv, hevs, hs, hrest⟩ := ih (v := appendChangeEvent env v .insertRow d
            table.schema.tableName none none
            (some { row with rowId := some table.heap.nextRowId })) hok hfit'
          rw [hschema] at hevs hs hrest
          simp only [hrun]
          refine ⟨.inserted { row with rowId := some table.heap.nextRowId } :: evs, ?_, ?_, hs,
            hrest⟩
          · rw [hv, logEvents_cons, h.schema.table]
            rfl
          · intro ev hev
            rcases List.mem_cons.mp hev with rfl | hev
            · intro r hr
              cases hr
              exact hstored
            · exact hevs ev hev

theorem executeInsert_fits (h : TableOk d t table) (stmt : InsertStatement)
    (hfit : ∀ row ∈ table.heap.rows, Fits table.schema row) :
    LeavesFitting env d t table v (executeInsert env stmt d table v) := by
  unfold executeInsert
  cases insertColumnMap table.schema stmt.columnNames with
  | error e => exact leavesFitting_same hfit _
  | fault => exact leavesFitting_same hfit _
  | ok map => exact insertRows_fits h map stmt.rows hfit

/-- The statements that replace all rows. -/
theorem Replaces.fits {applies : List RowData → List RowEvent → Prop}
    {starts : List RowEvent → Prop} {r : TableRuntime × VersionStore × Result QueryResult}
    (h : Replaces table (logEvents env d t v) applies starts r)
    (hfit : ∀ row ∈ table.heap.rows, Fits table.schema row)
    (happlies : ∀ rows evs, applies rows evs → (∀ row ∈ rows, Fits table.schema row) ∧
      ∀ ev ∈ evs, EventFits table.schema ev)
    (hstarts : ∀ evs, starts evs → ∀ ev ∈ evs, EventFits table.schema ev) :
    LeavesFitting env d t table v r := by
  rcases h with ⟨rows, evs, happ, ⟨hschema, hheap⟩, hv, -⟩ | ⟨-, htab, -, evs, hevs, hv⟩
  · obtain ⟨hrows, hevs⟩ := happlies rows evs happ
    refine ⟨evs, hv, hevs, hschema, ?_⟩
    rw [hheap]
    exact hrows
  · refine ⟨evs, hv, ?_, by rw [htab], by rw [htab]; exact hfit⟩
    rcases hevs with rfl | hevs
    · simp
    · exact hstarts evs hevs

theorem UpdatedRows.fits {re : RegexMatch} {schema : TableSchema} {stmt : UpdateStatement}
    {rows rows' : List RowData} {evs : List RowEvent}
    (h : UpdatedRows re schema stmt rows rows' evs) (hfit : ∀ row ∈ rows, Fits schema row) :
    (∀ row ∈ rows', Fits schema row) ∧ ∀ ev ∈ evs, EventFits schema ev := by
  induction h with
  | nil => simp
  | @cons row row' rows rows' ev evs h _ ih =>
      obtain ⟨hrows, hevs⟩ := ih fun r hr => hfit r (by simp [hr])
      have hone : Fits schema row' ∧ ∀ e ∈ ev, EventFits schema e := by
        cases h with
        | kept h => exact ⟨hfit row (by simp), by simp⟩
        | changed h =>
            have hrow' := updateRow_fits (hfit row (by simp)).length h
            refine ⟨hrow', ?_⟩
            intro e he r hr
            rw [List.mem_singleton.mp he] at hr
            cases hr
            exact hrow'
      constructor
      · intro r hr
        rcases List.mem_cons.mp hr with rfl | hr
        · exact hone.1
        · exact hrows r hr
      · intro e he
        rcases List.mem_append.mp he with he | he
        · exact hone.2 e he
        · exact hevs e he

theorem DeletedRows.fits {re : RegexMatch} {schema : TableSchema} {w : Option Expression}
    {rows rows' : List RowData} {evs : List RowEvent} (h : DeletedRows re schema w rows rows' evs) :
    ∀ ev ∈ evs, EventFits schema ev := by
  induction h with
  | nil => simp
  | kept _ _ ih => exact ih
  | dropped _ _ ih =>
      intro ev hev
      rcases List.mem_cons.mp hev with rfl | hev
      · intro row hrow
        cases hrow
      · exact ih ev hev

theorem revertEvents_fits {schema : TableSchema} {current target : List RowData}
    (h : ∀ row ∈ target, Fits schema row) :
    ∀ ev ∈ revertEvents (rowsById current) (rowsById target), EventFits schema ev := by
  intro ev hev row hrow
  rcases List.mem_append.mp hev with hev | hev
  · obtain ⟨p, -, hp⟩ := List.mem_filterMap.mp hev
    unfold removalEvent at hp
    split at hp
    · cases hp
      cases hrow
    · rename_i row' htarget
      split at hp
      · cases hp
      · cases hp
        cases hrow
        exact h _ (mem_rowsById (Dict.mem_entries_iff.mpr htarget)).1
  · obtain ⟨p, hmem, hp⟩ := List.mem_filterMap.mp hev
    unfold restoreEvent at hp
    split at hp
    · cases hp
    · cases hp
      cases hrow
      exact h _ (mem_rowsById hmem).1

end Statements

/-! ## §5. Statements on the store. -/

/-- **A REVERT to a time before the last CREATE TABLE of its table.** -/
def revertsPastCreation (s : Store) (session : SessionContext) : Statement → Bool
  | .revert stmt =>
      match resolveDatabaseName session stmt.tableName.databaseName with
      | .ok d =>
          match revertTarget stmt d s.versions with
          | .ok (some ts) =>
              (s.versions.historyForTable d stmt.tableName.objectName).any fun r =>
                decide (r.kind = .createTable) && decide (ts < r.timestamp)
          | _ => false
      | _ => false
  | _ => false

theorem LeavesFitting.leaves {env : Env} {s : Store} (h : EachTable FitsTable s)
    {session : SessionContext} {name : QualifiedName}
    {f : Str → TableRuntime → VersionStore → TableRuntime × VersionStore × Result QueryResult}
    (hf : ∀ d db table, OnTable s session name d db table →
      (∀ row ∈ table.heap.rows, Fits table.schema row) →
      LeavesFitting env d name.objectName table s.versions (f d table s.versions)) :
    Leaves env FitsTable s session name f := by
  intro d db table hon
  have htable := h d db _ table hon.found hon.table
  obtain ⟨evs, hv, hevs, hschema, hrows⟩ := hf d db table hon htable.rows
  exact ⟨evs, hv, htable.leaves hschema hrows hevs⟩

/-- Any other REVERT goes to a time when the table had been created. -/
theorem createdBefore_of_not_past {s : Store} {session : SessionContext} {stmt : RevertStatement}
    {d : Str} {db : DatabaseRuntime} {table : TableRuntime}
    (hon : OnTable s session stmt.tableName d db table)
    (hno : revertsPastCreation s session (.revert stmt) = false) {ts : Str}
    (hts : revertTarget stmt d s.versions = .ok (some ts)) :
    ∀ r ∈ s.versions.historyForTable d stmt.tableName.objectName,
      r.kind = .createTable → r.timestamp ≤ ts := by
  intro r hr hk
  simp only [revertsPastCreation, hon.database, hts, List.any_eq_false] at hno
  simpa [hk] using hno r hr

/-- The rows any other REVERT goes back to were logged since the table was
created. -/
theorem revertTarget_fits {s : Store} (h : EachTable FitsTable s) {session : SessionContext}
    {stmt : RevertStatement} {d : Str} {db : DatabaseRuntime} {table : TableRuntime}
    (hon : OnTable s session stmt.tableName d db table)
    (hno : revertsPastCreation s session (.revert stmt) = false) {ts : Str}
    (hts : revertTarget stmt d s.versions = .ok (some ts)) :
    ∀ row ∈ reconstructTableStateAt s.versions d stmt.tableName.objectName ts,
      Fits table.schema row := by
  intro row hrow
  obtain ⟨r, hr, hafter⟩ :=
    reconstruct_incarnation (createdBefore_of_not_past hon hno hts) row hrow
  exact (h d db _ table hon.found hon.table).records r hr row hafter

/-- **Every statement keeps the rows fitting, unless it is such a REVERT.** -/
theorem execute_fits {env : Env} {s : Store} (hok : StoreOk s) (h : EachTable FitsTable s)
    (session : SessionContext) {statement : Statement} (detail : Str)
    (hno : revertsPastCreation s session statement = false) :
    EachTable FitsTable (execute env s session statement detail).1 := by
  have htab : ∀ {name d db table}, OnTable s session name d db table →
      TableOk d name.objectName table := fun hon => (hok.state _ _ hon.found).tables _ _ hon.table
  apply h.execute hok.state (fitsTable_local env) (fitsTable_new env).created
  · intro stmt _
    exact LeavesFitting.leaves h fun d db table hon hfit => executeInsert_fits (htab hon) stmt hfit
  · intro stmt _
    refine LeavesFitting.leaves h fun d db table hon hfit => ?_
    have hrep := executeUpdate_replaces env stmt (htab hon) s.versions
    rw [(htab hon).schema.table] at hrep
    apply hrep.fits hfit
    · intro rows evs happ
      exact happ.1.fits hfit
    · rintro evs ⟨A, B, A', hAB, hA⟩
      exact (hA.fits fun row hrow => hfit row (by rw [hAB]; exact List.mem_append_left B hrow)).2
  · intro stmt _
    refine LeavesFitting.leaves h fun d db table hon hfit => ?_
    have hrep := executeDelete_replaces env stmt (htab hon) s.versions
    rw [(htab hon).schema.table] at hrep
    apply hrep.fits hfit
    · intro rows evs happ
      exact ⟨fun row hrow => hfit row (happ.sublist.subset hrow), DeletedRows.fits happ⟩
    · rintro evs ⟨A, B, A', hAB, hA⟩
      exact hA.fits
  · rintro stmt rfl
    refine LeavesFitting.leaves h fun d db table hon hfit => ?_
    have hrep := executeRevert_replaces env stmt (htab hon) s.versions
    rw [(htab hon).schema.table] at hrep
    apply hrep.fits hfit
    · rintro rows evs ⟨⟨ts, hts, rfl, -⟩, rfl⟩
      have htarget := revertTarget_fits h hon hno hts
      exact ⟨htarget, revertEvents_fits htarget⟩
    · rintro evs ⟨ts, hts, -, rfl⟩
      exact revertEvents_fits (revertTarget_fits h hon hno hts)

end CustomDbms.Execution
