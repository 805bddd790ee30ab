/-
  CustomDbms.Core.RowIds
  ──────────────────────
  **WHEN A ROW ID IS USED ONCE.**

  The history of a table speaks of rows by their ids, so an id must not come
  back for another row.  The counter of the heap is one more than the greatest
  id in the table; `ReplaceAll`, a clone and `Load` compute it anew from the
  rows there are.  A DELETE of the row with the greatest id therefore gives
  this id back, and the next INSERT assigns it to a new row
  (`rowId_assigned_twice`).

    • `insert_cases` — an INSERT numbers its rows from the counter on and records
      the numbers;
    • `rowIds_assigned_once` — in a run in which every INSERT that stores a row
      finds the greatest recorded id still in the table, no id is assigned
      twice;
    • `engineRun_tableRun` — the states of an engine come about by such runs.
-/
import CustomDbms.Core.PersistenceRoundTrip
import CustomDbms.Core.RevertHistory
import CustomDbms.Execution.RecordedIds

namespace CustomDbms.Core

open CustomDbms.Common CustomDbms.Catalog CustomDbms.Execution CustomDbms.Index CustomDbms.Lib
open CustomDbms.Parser CustomDbms.Planner CustomDbms.Storage CustomDbms.Versioning

/-! ## §1. Ids in a table. -/

/-- The ids of the rows of a table, in the order of the heap. -/
def storedIds (s : Store) (d t : Str) : List Nat :=
  ((storeRows s d t).getD []).filterMap (·.rowId)

/-- The ids `Insert` assigns in a statement: an INSERT leaves the rows it finds
and puts the new ones behind them. -/
def assignedIds (d t : Str) (s s' : Store) : Statement → List Nat
  | .insert _ => (storedIds s' d t).drop (storedIds s d t).length
  | _ => []

/-- An INSERT into the table, which stores at least its first row. -/
def StoresInto (d t : Str) (s : Store) (session : SessionContext) : Statement → Prop
  | .insert stmt => ∃ db table, stmt.tableName.objectName = t ∧
      OnTable s session stmt.tableName d db table ∧ AdmitsFirst stmt table
  | _ => False

/-- No recorded id is greater than all ids in the table. -/
def GreatestKept (d t : Str) (s : Store) : Prop :=
  ∀ i ∈ recordedIds s.versions d t, ∃ j ∈ storedIds s d t, i ≤ j

/-- The condition on a statement. -/
def InsertsOnTop (d t : Str) (s : Store) (session : SessionContext) (statement : Statement) :
    Prop :=
  StoresInto d t s session statement → GreatestKept d t s

/-- The condition on a restart: `Load` restores the store. -/
def Restorable (s : Store) : Prop := StoreIdsFit s ∧ StoreSavable s

/-! ## §2. Runs. -/

/-- The ids assigned so far, after a step: none where there is no table. -/
def idsAfter (d t : Str) (s : Store) (ids : List Nat) : List Nat :=
  if (storeRows s d t).isSome then ids else []

/-- **How a state comes about**, and the ids `Insert` has assigned in the table
`d.t` since it was created, one after the other: by statements on any tables,
by the copy that BEGIN works on, by `Save` and `Load`.  A COMMIT makes the state
of the transaction the committed one, a ROLLBACK goes back to that. -/
inductive TableRun (statements : Store → SessionContext → Statement → Prop)
    (restarts : Store → Prop) (d t : Str) : Store → List Nat → Prop where
  | start : TableRun statements restarts d t Store.empty []
  | statement {s : Store} {ids : List Nat} {statement : Statement}
      (h : TableRun statements restarts d t s ids) (env : Env) (session : SessionContext)
      (sql : Str) (hparse : parse sql = .ok statement)
      (hstatement : statements s session statement) :
      TableRun statements restarts d t (runStatement env s session statement).1
        (idsAfter d t (runStatement env s session statement).1
          (ids ++ assignedIds d t s (runStatement env s session statement).1 statement))
  | copied {s : Store} {ids : List Nat} {state : RuntimeState}
      (h : TableRun statements restarts d t s ids)
      (hclone : cloneRuntimeState s.runtime = .ok state) :
      TableRun statements restarts d t ⟨state, s.versions⟩ ids
  | restarted {s : Store} {ids : List Nat} (h : TableRun statements restarts d t s ids)
      (hrestart : restarts s) (directory : Directory) :
      TableRun statements restarts d t
        (DbmsEngine.loaded (save s.runtime s.versions directory)).store
        (idsAfter d t (DbmsEngine.loaded (save s.runtime s.versions directory)).store ids)

/-- What a run keeps. -/
structure IdsOk (d t : Str) (s : Store) (ids : List Nat) : Prop where
  store : StoreOk s.bare
  absent : storeRows s d t = none → ids = []
  recorded : ∀ i ∈ ids, i ∈ recordedIds s.versions d t

/-! ## §3. One statement. -/

section Step

variable {env : Env} {d t : Str} {s : Store} {ids : List Nat}

theorem IdsOk.state (h : IdsOk d t s ids) : StateOk s.runtime := h.store.state

/-- Where there is no table, there are no ids to look at. -/
theorem idsOk_after (hstore : StoreOk s.bare)
    (hrecorded : ∀ rows, storeRows s d t = some rows →
      ∀ i ∈ ids, i ∈ recordedIds s.versions d t) : IdsOk d t s (idsAfter d t s ids) := by
  unfold idsAfter
  cases hrows : storeRows s d t with
  | none => exact ⟨hstore, fun _ => rfl, by simp⟩
  | some rows =>
      refine ⟨hstore, fun hnone => ?_, hrecorded rows hrows⟩
      rw [hrows] at hnone
      cases hnone

theorem IdsOk.after (h : IdsOk d t s ids) : IdsOk d t s (idsAfter d t s ids) :=
  idsOk_after h.store fun _ _ => h.recorded

theorem storedIds_of_some {table : TableRuntime} (h : storeTable s d t = some table) :
    storedIds s d t = table.heap.rows.filterMap (·.rowId) := by
  rw [storedIds, storeRows_of_some h]
  rfl

theorem storeRows_eq_none {s : Store} : storeRows s d t = none ↔ storeTable s d t = none := by
  rw [storeRows_eq, Option.map_eq_none_iff]

/-- Every stored id lies below the counter. -/
theorem lt_nextRowId {table : TableRuntime} (h : TableOk d t table) {j : Nat}
    (hj : j ∈ table.heap.rows.filterMap (·.rowId)) : j < table.heap.nextRowId := by
  obtain ⟨row, hrow, hid⟩ := List.mem_filterMap.mp hj
  rw [h.heap.next]
  exact (lt_nextAfter table.heap.rows 0).2 row hrow j hid

/-- The counter is 0 or follows a stored id. -/
theorem nextRowId_cases {table : TableRuntime} (h : TableOk d t table) :
    table.heap.nextRowId = 0 ∨
      table.heap.nextRowId - 1 ∈ table.heap.rows.filterMap (·.rowId) := by
  rw [h.heap.next]
  generalize table.heap.rows = rows
  induction rows using List.reverseRecOn with
  | nil => exact .inl rfl
  | append_singleton rows row ih =>
      rw [nextAfter_concat, List.filterMap_append]
      cases hid : row.rowId with
      | none => simpa [hid] using ih
      | some i =>
          dsimp only
          split
          · right
            simp [hid]
          · exact ih.imp_right (List.mem_append_left _)

/-- What an INSERT that stores rows in the table does to its ids: the new ones
are numbers from the counter on. -/
structure Numbers (d t : Str) (s s' : Store) (next count : Nat) : Prop where
  above : ∀ j ∈ storedIds s d t, j < next
  follows : next = 0 ∨ next - 1 ∈ storedIds s d t
  stored : storedIds s' d t = storedIds s d t ++ List.range' next (count + 1)
  recorded : recordedIds s'.versions d t
    = recordedIds s.versions d t ++ List.range' next (count + 1)

/-- **What an INSERT does to the ids of a table**: it stores no row there, or it
numbers its rows from the counter on and records the numbers. -/
theorem insert_cases (env : Env) (hok : StateOk s.runtime) (session : SessionContext)
    (stmt : InsertStatement) (d t : Str) :
    let s' := (withTable s session stmt.tableName (executeInsert env stmt)).1
    (¬ StoresInto d t s session (.insert stmt) ∧ storedIds s' d t = storedIds s d t) ∨
      (StoresInto d t s session (.insert stmt) ∧ ∃ next count, Numbers d t s s' next count) := by
  intro s'
  have hnot : storedIds s' d t = storedIds s d t → ¬ StoresInto d t s session (.insert stmt) →
      (¬ StoresInto d t s session (.insert stmt) ∧ storedIds s' d t = storedIds s d t) ∨
      (StoresInto d t s session (.insert stmt) ∧ ∃ next count, Numbers d t s s' next count) :=
    fun hsame hno => .inl ⟨hno, hsame⟩
  rcases withTable_cases s session stmt.tableName with ⟨d', db, table, hon⟩ | ⟨hoff, hsame⟩
  · have hstore := storeTable_withTable hon (executeInsert env stmt) d t
    by_cases hthis : d = d' ∧ t = stmt.tableName.objectName
    · obtain ⟨rfl, rfl⟩ := hthis
      rw [if_pos ⟨rfl, rfl⟩] at hstore
      have htab := (hok d db hon.found).tables _ _ hon.table
      obtain ⟨new, hnew⟩ := executeInsert_ids env htab stmt s.versions
      have hold := storedIds_of_some (storeTable_of_onTable hon)
      have hstored : storedIds s' d stmt.tableName.objectName
          = storedIds s d stmt.tableName.objectName
            ++ List.range' table.heap.nextRowId new.length := by
        rw [storedIds_of_some hstore, hold, hnew.rows, List.filterMap_append, hnew.ids]
      have hlog : recordedIds s'.versions d stmt.tableName.objectName
          = recordedIds s.versions d stmt.tableName.objectName
            ++ List.range' table.heap.nextRowId new.length := by
        have hversions : s'.versions
            = logEvents env d stmt.tableName.objectName s.versions (new.map .inserted) := by
          rw [← hnew.log]
          show (withTable s session stmt.tableName (executeInsert env stmt)).1.versions = _
          rw [withTable_onTable hon]
        rw [hversions, recordedIds_logEvents, List.filterMap_map, ← hnew.ids]
        rfl
      cases hrows : new with
      | nil =>
          apply hnot
          · rw [hstored, hrows]
            exact List.append_nil _
          · rintro ⟨db', table', -, hon', hadmits⟩
            obtain ⟨-, -, rfl⟩ := hon.unique hon'
            exact hnew.first.mpr hadmits hrows
      | cons row rows =>
          right
          rw [hrows] at hstored hlog
          refine ⟨⟨db, table, rfl, hon, hnew.first.mp (by simp [hrows])⟩,
            table.heap.nextRowId, rows.length, ?_, ?_, hstored, hlog⟩
          · rw [hold]
            exact fun j hj => lt_nextRowId htab hj
          · rw [hold]
            exact nextRowId_cases htab
    · rw [if_neg hthis] at hstore
      apply hnot
      · rw [storedIds, storedIds, storeRows_eq, storeRows_eq, hstore]
      · rintro ⟨db', table', rfl, hon', -⟩
        obtain ⟨rfl, -, -⟩ := hon.unique hon'
        exact hthis ⟨rfl, rfl⟩
  · apply hnot
    · show storedIds (withTable s session stmt.tableName (executeInsert env stmt)).1 d t = _
      rw [hsame]
    · rintro ⟨db', table', -, hon', -⟩
      exact hoff d db' table' hon'

theorem Numbers.assigned {s' : Store} {next count : Nat} (h : Numbers d t s s' next count)
    (stmt : InsertStatement) :
    assignedIds d t s s' (.insert stmt) = List.range' next (count + 1) := by
  show (storedIds s' d t).drop _ = _
  rw [h.stored, List.drop_left]

theorem assignedIds_of_stored {s' : Store} (h : storedIds s' d t = storedIds s d t)
    (statement : Statement) : assignedIds d t s s' statement = [] := by
  cases statement with
  | insert stmt =>
      show (storedIds s' d t).drop _ = []
      rw [h, List.drop_length]
  | _ => rfl

/-- The ids a statement assigns are recorded. -/
theorem assigned_recorded (env : Env) (hok : StateOk s.runtime) (session : SessionContext)
    (statement : Statement) (detail : Str) :
    ∀ i ∈ assignedIds d t s (execute env s session statement detail).1 statement,
      i ∈ recordedIds (execute env s session statement detail).1.versions d t := by
  cases statement with
  | insert stmt =>
      intro i hi
      change i ∈ recordedIds (withTable s session stmt.tableName
        (executeInsert env stmt)).1.versions d t
      change i ∈ assignedIds d t s (withTable s session stmt.tableName
        (executeInsert env stmt)).1 _ at hi
      rcases insert_cases env hok session stmt d t with ⟨-, hsame⟩ | ⟨-, next, count, hnum⟩
      · rw [assignedIds_of_stored hsame] at hi
        cases hi
      · rw [hnum.assigned] at hi
        rw [hnum.recorded]
        exact List.mem_append_right _ hi
  | _ => simp [assignedIds]

/-- The ids assigned before stay recorded as long as the table is there. -/
theorem IdsOk.execute_recorded (h : IdsOk d t s ids) {session : SessionContext}
    {statement : Statement} {detail : Str} {rows : List RowData}
    (hrows : storeRows (execute env s session statement detail).1 d t = some rows) :
    ∀ i ∈ ids, i ∈ recordedIds (execute env s session statement detail).1.versions d t := by
  have heach : EachTable (RecordsAll ids d t) s := fun _ _ _ _ _ _ _ _ i hi => h.recorded i hi
  have hall := execute_records env h.state heach (by
    intro hnone
    apply h.absent
    rw [storeRows_eq_none, storeTable, Option.bind_eq_none_iff]
    exact hnone) session statement detail
  rw [storeRows_eq, Option.map_eq_some_iff] at hrows
  obtain ⟨table, htable, -⟩ := hrows
  obtain ⟨db, hdb, ht⟩ := storeTable_eq_some.mp htable
  exact hall d db t table hdb ht rfl rfl

/-- A statement is executed, or there is no plan for it. -/
theorem runStatement_store (env : Env) (s : Store) (session : SessionContext)
    (statement : Statement) : (runStatement env s session statement).1 = s ∨
      ∃ detail, (runStatement env s session statement).1
        = (execute env s session statement detail).1 := by
  unfold runStatement
  cases hplan : buildPlan s.runtime statement with
  | error e => exact .inl rfl
  | fault => exact .inl rfl
  | ok plan =>
      right
      refine ⟨plan.detail, ?_⟩
      simp only [buildPlan_statement hplan]

/-- **The step lemma.** -/
theorem IdsOk.statement (h : IdsOk d t s ids) (env : Env) {session : SessionContext}
    {statement : Statement} (hval : validateStatement statement = .ok ()) :
    IdsOk d t (runStatement env s session statement).1
      (idsAfter d t (runStatement env s session statement).1
        (ids ++ assignedIds d t s (runStatement env s session statement).1 statement)) := by
  rcases runStatement_store env s session statement with hsame | ⟨detail, hrun⟩
  · rw [hsame, assignedIds_of_stored rfl, List.append_nil]
    exact h.after
  · rw [hrun]
    apply idsOk_after (execute_bare_ok h.store session hval detail)
    intro rows hrows i hi
    rcases List.mem_append.mp hi with hi | hi
    · exact h.execute_recorded hrows i hi
    · exact assigned_recorded env h.state session statement detail i hi

/-- **New ids lie above the recorded ones** where the greatest of these is still
in the table. -/
theorem Numbers.fresh {s' : Store} {next count : Nat} (h : Numbers d t s s' next count)
    (hkept : GreatestKept d t s) :
    ∀ i ∈ List.range' next (count + 1), i ∉ recordedIds s.versions d t := by
  intro i hi hrec
  obtain ⟨j, hj, hij⟩ := hkept i hrec
  have hlt := h.above j hj
  rw [List.mem_range'_1] at hi
  omega

/-- A statement that meets the condition assigns ids that are new to the log. -/
theorem assigned_fresh (env : Env) (hok : StateOk s.runtime) {session : SessionContext}
    {statement : Statement} (hcond : InsertsOnTop d t s session statement) :
    (assignedIds d t s (runStatement env s session statement).1 statement).Nodup ∧
      ∀ i ∈ assignedIds d t s (runStatement env s session statement).1 statement,
        i ∉ recordedIds s.versions d t := by
  cases statement with
  | insert stmt =>
      show (assignedIds d t s (withTable s session stmt.tableName
        (executeInsert env stmt)).1 (.insert stmt)).Nodup ∧ ∀ i ∈ assignedIds d t s (withTable s
          session stmt.tableName (executeInsert env stmt)).1 (.insert stmt), _
      rcases insert_cases env hok session stmt d t with ⟨-, hsame⟩ | ⟨hstores, next, count, hnum⟩
      · rw [assignedIds_of_stored hsame]
        simp
      · rw [hnum.assigned]
        exact ⟨List.nodup_range', hnum.fresh (hcond hstores)⟩
  | _ => exact ⟨List.nodup_nil, by simp [assignedIds]⟩

end Step

/-! ## §4. Copies and restarts. -/

section Copies

variable {d t : Str} {s : Store} {ids : List Nat}

/-- The rows of a store are those of its view. -/
theorem storeRows_view (s : Store) (d t : Str) :
    storeRows s d t = (viewTable s.runtime.view d t).map fun w => w.heap.rows := by
  simp only [storeRows, viewTable, RuntimeState.view, Dict.find?_mapVals]
  cases s.runtime.databases.find? d with
  | none => rfl
  | some db =>
      simp only [Option.bind_some, Option.map_some, DatabaseRuntime.view, Dict.find?_mapVals,
        Option.map_map]
      cases db.tables.find? t <;> rfl

/-- A copy of a store: another state in order, the same rows, and the same
records but for their schemas. -/
structure CopyOf (d t : Str) (s s' : Store) : Prop where
  state : StateOk s'.runtime
  rows : storeRows s' d t = storeRows s d t
  versions : bareVersions s'.versions = bareVersions s.versions

theorem IdsOk.copy {s' : Store} (h : IdsOk d t s ids) (hcopy : CopyOf d t s s') :
    IdsOk d t s' ids := by
  refine ⟨⟨hcopy.state, ?_⟩, ?_, ?_⟩
  · show HistoryOk (bareVersions s'.versions)
    rw [hcopy.versions]
    exact h.store.history
  · rw [hcopy.rows]
    exact h.absent
  · rw [← recordedIds_bare, hcopy.versions, recordedIds_bare]
    exact h.recorded

/-- **What BEGIN works on is a copy.** -/
theorem copyOf_clone (hok : StateOk s.runtime) {state : RuntimeState}
    (hclone : cloneRuntimeState s.runtime = .ok state) : CopyOf d t s ⟨state, s.versions⟩ := by
  obtain ⟨state', hclone', hok', hview⟩ := cloneRuntimeState_ok hok
  obtain rfl : state' = state := by simpa [hclone'] using hclone
  refine ⟨hok', ?_, rfl⟩
  rw [storeRows_view, storeRows_view]
  show (viewTable state'.view d t).map _ = _
  rw [hview]

theorem store_loaded (directory : Directory) : (DbmsEngine.loaded directory).store
    = (load directory RuntimeState.empty VersionStore.empty).store := rfl

/-- **What `Load` reads of `Save` is a copy.** -/
theorem copyOf_loaded (hok : StateOk s.runtime) (hrestart : Restorable s)
    (directory : Directory) :
    CopyOf d t s (DbmsEngine.loaded (save s.runtime s.versions directory)).store := by
  obtain ⟨s', hload, hok', hview⟩ := load_of_savable hok hrestart.1 hrestart.2
    (save_state s.runtime s.versions directory) (save_history s.runtime s.versions directory)
    RuntimeState.empty VersionStore.empty
  have hrestores : Restores s ⟨s', ⟨s.versions.records.map plainRecord⟩⟩ :=
    restores_of_view hok hok' hview rfl
  rw [store_loaded, hload]
  refine ⟨hok', hrestores.storeRows_eq d t, ?_⟩
  show VersionStore.mk ((s.versions.records.map plainRecord).map bareRecord) = _
  rw [List.map_map]
  rfl

end Copies

/-! ## §5. Runs. -/

section Runs

variable {d t : Str} {s : Store} {ids : List Nat}

/-- **The run lemma**: the ids assigned are recorded, whatever the statements. -/
theorem TableRun.idsOk {statements : Store → SessionContext → Statement → Prop}
    (h : TableRun statements Restorable d t s ids) : IdsOk d t s ids := by
  induction h with
  | start => exact ⟨storeOk_bare storeOk_empty, fun _ => rfl, by simp⟩
  | statement _ env session sql hparse _ ih => exact ih.statement env (parse_validated hparse)
  | copied _ hclone ih => exact ih.copy (copyOf_clone ih.state hclone)
  | restarted _ hrestart directory ih =>
      exact (ih.copy (copyOf_loaded ih.state hrestart directory)).after

theorem nodup_idsAfter (h : ids.Nodup) : (idsAfter d t s ids).Nodup := by
  unfold idsAfter
  split
  · exact h
  · exact List.nodup_nil

/-- A statement that meets the condition assigns no id again. -/
theorem IdsOk.nodup_assigned (h : IdsOk d t s ids) (hnodup : ids.Nodup) (env : Env)
    {session : SessionContext} {statement : Statement}
    (hcond : InsertsOnTop d t s session statement) :
    (ids ++ assignedIds d t s (runStatement env s session statement).1 statement).Nodup := by
  obtain ⟨hnew, hfresh⟩ := assigned_fresh env h.state hcond
  apply List.Nodup.append hnodup hnew
  intro i hi hassigned
  exact hfresh i hassigned (h.recorded i hi)

theorem TableRun.nodup (h : TableRun (InsertsOnTop d t) Restorable d t s ids) : ids.Nodup := by
  induction h with
  | start => exact List.nodup_nil
  | statement h env session sql _ hstatement ih =>
      exact nodup_idsAfter (h.idsOk.nodup_assigned ih env hstatement)
  | copied _ _ ih => exact ih
  | restarted _ _ _ ih => exact nodup_idsAfter ih

/-- **A row id is assigned once** where every INSERT that stores a row finds the
greatest recorded id still in the table: along a run the ids `Insert` has
assigned are pairwise distinct, the records hold them all, and the next
statement assigns none that a record holds. -/
theorem rowIds_assigned_once (h : TableRun (InsertsOnTop d t) Restorable d t s ids) :
    ids.Nodup ∧ (∀ i ∈ ids, i ∈ recordedIds s.versions d t) ∧
      ∀ (env : Env) (session : SessionContext) (statement : Statement),
        InsertsOnTop d t s session statement →
        ∀ i ∈ assignedIds d t s (runStatement env s session statement).1 statement,
          i ∉ recordedIds s.versions d t :=
  ⟨h.nodup, h.idsOk.recorded,
    fun env _ _ hstatement => (assigned_fresh env h.idsOk.state hstatement).2⟩

/-- Texts that one session sends, one after the other, and the ids assigned. -/
def runTable (env : Env) (session : SessionContext) (d t : Str) :
    Store × List Nat → List Str → Store × List Nat
  | p, [] => p
  | p, sql :: rest =>
      match parse sql with
      | .ok statement =>
          let s' := (runStatement env p.1 session statement).1
          runTable env session d t
            (s', idsAfter d t s' (p.2 ++ assignedIds d t p.1 s' statement)) rest
      | _ => runTable env session d t p rest

/-- Such a run meets a condition that holds before each of its texts. -/
theorem tableRun_runTable {statements : Store → SessionContext → Statement → Prop}
    {restarts : Store → Prop} {d t : Str} (env : Env) (session : SessionContext)
    {p : Store × List Nat} (h : TableRun statements restarts d t p.1 p.2) (texts : List Str)
    (hall : ∀ k < texts.length, ∀ statement,
      statements (runTable env session d t p (texts.take k)).1 session statement) :
    TableRun statements restarts d t (runTable env session d t p texts).1
      (runTable env session d t p texts).2 := by
  induction texts generalizing p with
  | nil => exact h
  | cons sql rest ih =>
      have hfirst := hall 0 (Nat.zero_lt_succ _)
      have hrest := fun k hk => hall (k + 1) (Nat.succ_lt_succ hk)
      simp only [List.take_succ_cons, runTable] at hrest
      unfold runTable
      cases hparse : parse sql with
      | ok statement =>
          rw [hparse] at hrest
          exact ih (h.statement env session sql hparse (hfirst statement)) hrest
      | error e =>
          rw [hparse] at hrest
          exact ih h hrest
      | fault =>
          rw [hparse] at hrest
          exact ih h hrest

instance (d t : Str) (s : Store) : Decidable (GreatestKept d t s) :=
  inferInstanceAs (Decidable (∀ i ∈ recordedIds s.versions d t, ∃ j ∈ storedIds s d t, i ≤ j))

/-- Two rows, of which the first is deleted, and a third one. -/
def keptTexts : List Str :=
  [str "CREATE DATABASE d;", str "CREATE TABLE d.t (k INT);",
    str "INSERT INTO d.t (k) VALUES (1), (2);", str "DELETE FROM d.t WHERE k == 1;",
    str "INSERT INTO d.t (k) VALUES (3);"]

/-- The run of these texts. -/
def keptRun : Store × List Nat :=
  runTable sampleEnv ⟨str "a", []⟩ (str "d") (str "t") (Store.empty, []) keptTexts

set_option maxRecDepth 4000 in
theorem rowIds_assigned_once_keptRun :
    TableRun (InsertsOnTop (str "d") (str "t")) Restorable (str "d") (str "t")
        keptRun.1 keptRun.2 ∧
      keptRun.2 = [0, 1, 2] ∧ keptRun.2.Nodup := by
  have hkept : ∀ k < keptTexts.length, GreatestKept (str "d") (str "t")
      (runTable sampleEnv ⟨str "a", []⟩ (str "d") (str "t") (Store.empty, [])
        (keptTexts.take k)).1 := by decide +kernel
  have hrun : TableRun (InsertsOnTop (str "d") (str "t")) Restorable (str "d") (str "t")
      keptRun.1 keptRun.2 :=
    tableRun_runTable sampleEnv _ .start keptTexts fun k hk _ _ => hkept k hk
  exact ⟨hrun, by decide +kernel, (rowIds_assigned_once hrun).1⟩

/-- One row, which is deleted, and a second one. -/
def reusingRun : Store × List Nat :=
  runTable sampleEnv ⟨str "a", []⟩ (str "d") (str "t") (Store.empty, [])
    [str "CREATE DATABASE d;", str "CREATE TABLE d.t (k INT);",
      str "INSERT INTO d.t (k) VALUES (1);", str "DELETE FROM d.t WHERE k == 1;",
      str "INSERT INTO d.t (k) VALUES (2);"]

set_option maxRecDepth 4000 in
/-- **The id of a deleted row is assigned again**: the log has two INSERT_ROW
records with the id 0 and different rows. -/
theorem rowId_assigned_twice :
    TableRun (fun _ _ _ => True) (fun _ => True) (str "d") (str "t") reusingRun.1 reusingRun.2 ∧
      reusingRun.2 = [0, 0] ∧ ¬ reusingRun.2.Nodup ∧
      (reusingRun.1.versions.historyForTable (str "d") (str "t")).map
          (fun r => (r.kind, r.rowId, r.afterRow.map (·.values)))
        = [(.createTable, none, none), (.insertRow, some 0, some [.int 1]),
          (.deleteRow, some 0, none), (.insertRow, some 0, some [.int 2])] := by
  refine ⟨?_, by decide +kernel, by decide +kernel, by decide +kernel⟩
  exact tableRun_runTable sampleEnv _ .start _ fun _ _ _ => trivial

end Runs

/-! ## §6. The states of an engine. -/

/-- The engines of runs whose calls and restarts meet the conditions.  The calls
that replay the log after a restart do not write it. -/
inductive EngineRun (d t : Str) : DbmsEngine → Prop where
  | start {env : Env} {now : Nat} {e : DbmsEngine}
      (h : DbmsEngine.new env now Directory.empty = some e) : EngineRun d t e
  | call {e : DbmsEngine} (h : EngineRun d t e) (env : Env) (io : Io) (session : SessionContext)
      (sql : Str) (writeWal : Bool)
      (hcall : ∀ statement, parse sql = .ok statement →
        InsertsOnTop d t (e.storeFor session) session statement) :
      EngineRun d t (executeSqlImpl env io e session sql writeWal).1
  | restart {e : DbmsEngine} (h : EngineRun d t e) (hrestart : Restorable e.store)
      (directory : Directory) :
      EngineRun d t (DbmsEngine.loaded (save e.runtimeState e.versionStore directory))

/-- **The committed state and that of every transaction come about by runs of
statements, copies and restarts**, to which `rowIds_assigned_once` applies. -/
theorem engineRun_tableRun {d t : Str} {e : DbmsEngine} (h : EngineRun d t e) {s : Store}
    (hs : StoreOf e s) : ∃ ids, TableRun (InsertsOnTop d t) Restorable d t s ids := by
  have hall : AllStores (fun s => ∃ ids, TableRun (InsertsOnTop d t) Restorable d t s ids) e := by
    clear hs
    induction h with
    | start h =>
        rw [new_empty] at h
        cases h
        refine ⟨⟨[], .start⟩, ?_⟩
        intro key tx htx
        cases htx
    | @call e _ env io session sql writeWal hcall ih =>
        refine ih.executeSqlImpl ⟨[], .start⟩ ?_ ?_
        · intro state hstate
          obtain ⟨ids, hrun⟩ := ih.committed
          exact ⟨ids, hrun.copied hstate⟩
        · intro statement hparse
          obtain ⟨ids, hrun⟩ := ih.storeFor session
          exact ⟨_, hrun.statement env session sql hparse (hcall statement hparse)⟩
    | restart _ hrestart directory ih =>
        obtain ⟨ids, hrun⟩ := ih.committed
        refine ⟨⟨_, hrun.restarted hrestart directory⟩, ?_⟩
        intro key tx htx
        cases htx
  exact hall.of hs

end CustomDbms.Core
