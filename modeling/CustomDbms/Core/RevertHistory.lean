/-
  CustomDbms.Core.RevertHistory
  ─────────────────────────────
  **REVERT AND THE STATEMENTS OF A TABLE'S LIFE.**

  The life of a table, from its CREATE TABLE through INSERT, UPDATE, DELETE and
  REVERT, is a list of checkpoints: what each statement has logged of the table
  and the rows it has left.  The log knows nothing of statements; every row
  event carries a timestamp of its own.

    • `Incarnation.kept` — the records up to a checkpoint lead to its rows,
      from whatever map one starts with;
    • `revert_to_boundary` — a REVERT to a time between two statements brings
      back the rows of that moment, and can itself be reverted;
    • `revert_to_events` — in general a REVERT brings back what the row events
      up to its time lead to, which is half a statement where the time falls
      inside one (`revert_inside_insert`).
-/
import CustomDbms.Core.EngineHistory
import CustomDbms.Core.RowInvariant

namespace CustomDbms.Core

open CustomDbms.Common CustomDbms.Catalog CustomDbms.Execution CustomDbms.Index CustomDbms.Lib
open CustomDbms.Parser CustomDbms.Planner CustomDbms.Storage CustomDbms.Versioning

/-! ## §1. The life of a table. -/

/-- The table an INSERT, UPDATE, DELETE or REVERT names. -/
def changedTable : Statement → Option QualifiedName
  | .insert stmt => some stmt.tableName
  | .update stmt => some stmt.tableName
  | .delete stmt => some stmt.tableName
  | .revert stmt => some stmt.tableName
  | _ => none

/-- For this session the name stands for the table `d.t`. -/
structure NamesTable (session : SessionContext) (name : QualifiedName) (d t : Str) : Prop where
  database : resolveDatabaseName session name.databaseName = .ok d
  object : name.objectName = t

/-- What a statement has logged of a table, and the rows it has left. -/
structure Checkpoint where
  records : List ChangeRecord
  rows : List RowData

/-- The records of the table that lead from one log to another. -/
def Logs (v v' : VersionStore) (d t : Str) (records : List ChangeRecord) : Prop :=
  v'.historyForTable d t = v.historyForTable d t ++ records

/-- **One incarnation of the table `d.t`**: the store it has led to, and a
checkpoint for the CREATE TABLE and for every statement since.  In between,
anything may happen to the store that leaves this table and its records. -/
inductive Incarnation (d t : Str) : Store → List Checkpoint → Prop where
  | created {env : Env} {s s' : Store} {session session' : SessionContext}
      {stmt : CreateTableStatement} {q : QueryResult} {records : List ChangeRecord}
      {rows : List RowData} (hs : StoreOk s)
      (hval : validateStatement (.createTable stmt) = .ok ())
      (hname : NamesTable session stmt.tableName d t)
      (hrun : runStatement env s session (.createTable stmt) = (s', session', .ok q))
      (hlogs : Logs s.versions s'.versions d t records)
      (hrows : storeRows s' d t = some rows) :
      Incarnation d t s' [⟨records, rows⟩]
  | changed {env : Env} {s s' : Store} {session session' : SessionContext}
      {statement : Statement} {name : QualifiedName} {q : QueryResult}
      {records : List ChangeRecord} {rows : List RowData} {life : List Checkpoint}
      (h : Incarnation d t s life)
      (hval : validateStatement statement = .ok ())
      (htarget : changedTable statement = some name) (hname : NamesTable session name d t)
      (hrun : runStatement env s session statement = (s', session', .ok q))
      (hlogs : Logs s.versions s'.versions d t records)
      (hrows : storeRows s' d t = some rows) :
      Incarnation d t s' (life ++ [⟨records, rows⟩])
  | elsewhere {s s' : Store} {life : List Checkpoint} (h : Incarnation d t s life)
      (hs : StoreOk s')
      (htable : (storeTable s' d t).map (·.view) = (storeTable s d t).map (·.view))
      (hlogs : Logs s.versions s'.versions d t []) : Incarnation d t s' life

/-! ## §2. One statement. -/

theorem storeRows_eq (s : Store) (d t : Str) :
    storeRows s d t = (storeTable s d t).map fun table => table.heap.rows := by
  unfold storeRows storeTable
  rw [Option.map_bind]
  rfl

theorem storeRows_of_some {s : Store} {d t : Str} {table : TableRuntime}
    (h : storeTable s d t = some table) : storeRows s d t = some table.heap.rows := by
  rw [storeRows_eq, h]
  rfl

theorem NamesTable.onTable {s : Store} {session : SessionContext} {name : QualifiedName} {d t : Str}
    {table : TableRuntime} (h : NamesTable session name d t)
    (ht : storeTable s d t = some table) : ∃ db, OnTable s session name d db table := by
  obtain ⟨db, hdb, htable⟩ := storeTable_eq_some.mp ht
  exact ⟨db, h.database, hdb, by rw [h.object]; exact htable⟩

/-- What a statement on the rows of a table leaves: the schema, and row events
that lead from the old rows to the new ones. -/
def LeadsOn (env : Env) (d t : Str) (table : TableRuntime) (v : VersionStore)
    (r : TableRuntime × VersionStore × Result QueryResult) : Prop :=
  r.1.schema = table.schema ∧ Logged env d t table v r

/-- The rule for the statements that replace all rows, where they succeed. -/
theorem leadsOn_of_replaces {env : Env} {d t : Str} {table : TableRuntime} {v : VersionStore}
    {log : List RowEvent → VersionStore} {applies : List RowData → List RowEvent → Prop}
    {starts : List RowEvent → Prop} {r : TableRuntime × VersionStore × Result QueryResult}
    (hrep : Replaces table log applies starts r) {q : QueryResult} (hq : r.2.2 = .ok q)
    (hlog : (∃ rows evs, applies rows evs) → Logged env d t table v r) :
    LeadsOn env d t table v r := by
  refine ⟨?_, hlog (hrep.applies_of_ok hq)⟩
  rcases hrep with ⟨rows, evs, -, hreplaced, -⟩ | ⟨-, -, hne, -⟩
  · exact hreplaced.1
  · exact absurd hq (hne q)

/-- **A statement on the rows of a table that succeeds.** -/
theorem runStatement_leadsOn {env : Env} {s s' : Store} {session session' : SessionContext}
    {statement : Statement} {name : QualifiedName} {q : QueryResult} {d t : Str}
    {table : TableRuntime} (hs : StoreOk s) (htarget : changedTable statement = some name)
    (hname : NamesTable session name d t) (htable : storeTable s d t = some table)
    (hrun : runStatement env s session statement = (s', session', .ok q)) :
    ∃ r, storeTable s' d t = some r.1 ∧ s'.versions = r.2.1 ∧
      LeadsOn env d t table s.versions r := by
  obtain ⟨db, hon⟩ := hname.onTable htable
  have hok := tableOk_of_storeOk hs htable
  have hrule : ∀ f : Str → TableRuntime → VersionStore →
      TableRuntime × VersionStore × Result QueryResult,
      ((withTable s session name f).1, session, (withTable s session name f).2)
        = (s', session', .ok q) →
      ((f d table s.versions).2.2 = .ok q → LeadsOn env d t table s.versions
        (f d table s.versions)) →
      ∃ r, storeTable s' d t = some r.1 ∧ s'.versions = r.2.1 ∧
        LeadsOn env d t table s.versions r := by
    intro f heq hf
    have htab := storeTable_withTable hon f d t
    rw [if_pos ⟨rfl, hname.object.symm⟩] at htab
    simp only [Prod.mk.injEq] at heq
    obtain ⟨rfl, -, hq⟩ := heq
    rw [withTable_onTable hon] at hq
    refine ⟨f d table s.versions, htab, ?_, hf hq⟩
    rw [withTable_onTable hon]
  cases statement with
  | insert stmt =>
      cases htarget
      refine hrule _ hrun fun hq => ⟨?_, executeInsert_logged env hok⟩
      obtain ⟨k, vss, hschema, -⟩ := executeInsert_rows env hok stmt s.versions
      exact hschema
  | update stmt =>
      cases htarget
      refine hrule _ hrun fun hq => ?_
      refine leadsOn_of_replaces (executeUpdate_replaces env stmt hok s.versions) hq fun happ => ?_
      exact executeUpdate_logged env hok fun _ _ _ => happ
  | delete stmt =>
      cases htarget
      refine hrule _ hrun fun hq => ?_
      refine leadsOn_of_replaces (executeDelete_replaces env stmt hok s.versions) hq fun happ => ?_
      exact executeDelete_logged env hok fun _ _ _ => happ
  | revert stmt =>
      cases htarget
      refine hrule _ hrun fun hq => ?_
      refine leadsOn_of_replaces (executeRevert_replaces env stmt hok s.versions) hq fun happ => ?_
      obtain ⟨rows, evs, happ, -⟩ := happ
      exact executeRevert_logged env hok hs.history fun _ _ _ => ⟨rows, happ⟩
  | _ => cases htarget

/-- **A CREATE TABLE that succeeds.** -/
theorem runStatement_createTable {env : Env} {s s' : Store} {session session' : SessionContext}
    {stmt : CreateTableStatement} {q : QueryResult} {d t : Str}
    (hname : NamesTable session stmt.tableName d t)
    (hrun : runStatement env s session (.createTable stmt) = (s', session', .ok q)) :
    ∃ schema, storeTable s' d t = some (tableOf schema) ∧
      s'.versions = appendChangeEvent env s.versions .createTable d t (some schema) none none := by
  have heq : ((executeCreateTable env s session stmt).1, session,
      (executeCreateTable env s session stmt).2) = (s', session', .ok q) := hrun
  simp only [Prod.mk.injEq] at heq
  obtain ⟨rfl, -, hq⟩ := heq
  unfold executeCreateTable at hq ⊢
  rw [hname.database] at hq ⊢
  cases hdb : s.runtime.databases.find? d with
  | none => simp [hdb, Result.makeError] at hq
  | some db =>
      simp only [hdb] at hq ⊢
      by_cases hin : db.tables.contains stmt.tableName.objectName = true
      · simp [hin, Result.makeError] at hq
      · have hnone : db.tables.find? stmt.tableName.objectName = none := by
          simpa [Dict.contains] using hin
        have ht : (schemaOf d stmt).tableName = t := hname.object
        rw [if_neg hin]
        refine ⟨schemaOf d stmt, ?_, by rw [ht]⟩
        unfold storeTable
        dsimp only
        rw [Dict.find?_modify, if_pos rfl, hdb, Option.map_some, Option.bind_some]
        dsimp only
        rw [Dict.find?_emplace (show db.tables.find? (schemaOf d stmt).tableName = none from hnone),
          if_pos ht.symm]

/-! ## §3. The records up to a checkpoint. -/

/-- Rows a table with this schema can hold. -/
structure Holdable (schema : TableSchema) (rows : List RowData) : Prop where
  ordered : RowsOrdered rows
  shape : ∀ r ∈ rows, r.values.length = schema.columns.length
  indexable : ∀ n ∈ indexedColumns schema, Indexable schema n rows

theorem holdable_of_tableOk {d t : Str} {table : TableRuntime} (h : TableOk d t table) :
    Holdable table.schema table.heap.rows :=
  ⟨h.heap.ordered, h.shape, fun _ hn => h.indexable hn⟩

/-- The records of some checkpoints. -/
def recordsOf (life : List Checkpoint) : List ChangeRecord := life.flatMap (·.records)

/-- The records lead to the rows, from whatever map one starts with. -/
def LeadTo (records : List ChangeRecord) (rows : List RowData) : Prop :=
  ∀ m i, (records.foldl applyRecord m).find? i = rowAt rows i

/-- **The invariant of an incarnation.** -/
structure Kept (d t : Str) (s : Store) (life : List Checkpoint) : Prop where
  ok : StoreOk s
  table : ∃ table A c, storeTable s d t = some table ∧ life = A ++ [c] ∧
    table.heap.rows = c.rows ∧ ∀ c ∈ life, Holdable table.schema c.rows
  history : ∃ old, s.versions.historyForTable d t = old ++ recordsOf life
  leads : ∀ A c, A ++ [c] <+: life → LeadTo (recordsOf (A ++ [c])) c.rows

/-- The records of a CREATE TABLE lead to no rows. -/
theorem leadTo_created {r : ChangeRecord} (h : r.kind = .createTable) : LeadTo [r] [] := by
  intro m i
  rw [List.foldl_cons, List.foldl_nil, applyRecord, h]
  rfl

/-- The records of row events lead on. -/
theorem LeadTo.append {records rs : List ChangeRecord} {rows rows' : List RowData}
    {evs : List RowEvent} (h : LeadTo records rows) (hrs : List.Forall₂ RecordOf rs evs)
    (hevs : applyEvents (rowAt rows) evs = rowAt rows') : LeadTo (records ++ rs) rows' := by
  intro m i
  rw [List.foldl_append]
  have hstep := congrFun (find?_foldl_applyRecord hrs (records.foldl applyRecord m)) i
  rw [show (fun i => (records.foldl applyRecord m).find? i) = rowAt rows from funext (h m),
    hevs] at hstep
  exact hstep

/-- No records lead nowhere. -/
theorem LeadTo.ne_nil {records : List ChangeRecord} {rows : List RowData}
    (h : LeadTo records rows) : records ≠ [] := by
  rintro rfl
  have hempty := h Dict.empty none
  have hone := h (Dict.empty.assign none ⟨none, []⟩) none
  rw [← hempty, List.foldl_nil, List.foldl_nil, Dict.find?_assign, if_pos rfl] at hone
  cases hone

theorem recordsOf_append (A B : List Checkpoint) :
    recordsOf (A ++ B) = recordsOf A ++ recordsOf B :=
  List.flatMap_append

theorem recordsOf_singleton (c : Checkpoint) : recordsOf [c] = c.records := by
  simp [recordsOf]

theorem kept_created {env : Env} {s s' : Store} {session session' : SessionContext}
    {stmt : CreateTableStatement} {q : QueryResult} {d t : Str} {records : List ChangeRecord}
    {rows : List RowData} (hs' : StoreOk s') (hname : NamesTable session stmt.tableName d t)
    (hrun : runStatement env s session (.createTable stmt) = (s', session', .ok q))
    (hlogs : Logs s.versions s'.versions d t records) (hrows : storeRows s' d t = some rows) :
    Kept d t s' [⟨records, rows⟩] := by
  obtain ⟨schema, htable, hv⟩ := runStatement_createTable hname hrun
  obtain ⟨r, hkind, -, -, hh⟩ := historyForTable_appendChangeEvent env s.versions .createTable d t
    (some schema) none none d t
  -- the statement has logged one record, and the table has no rows
  obtain rfl : [r] = records := by
    rw [Logs, hv, hh, if_pos ⟨rfl, rfl⟩] at hlogs
    exact List.append_cancel_left hlogs
  obtain rfl : [] = rows := by
    rw [storeRows_of_some htable] at hrows
    exact Option.some.inj hrows
  refine ⟨hs', ⟨_, [], _, htable, rfl, rfl, ?_⟩, ⟨s.versions.historyForTable d t, ?_⟩, ?_⟩
  · intro c hc
    rw [List.mem_singleton.mp hc]
    exact holdable_of_tableOk (tableOk_of_storeOk hs' htable)
  · rw [recordsOf_singleton]
    exact hlogs
  · intro A c hprefix
    obtain heq | hnil := List.prefix_concat_iff.mp (show A ++ [c] <+: [] ++ [_] from hprefix)
    · obtain ⟨rfl, hc⟩ := List.append_inj' heq rfl
      cases hc
      exact leadTo_created hkind
    · simp at hnil

theorem Kept.changed {env : Env} {s s' : Store} {session session' : SessionContext}
    {statement : Statement} {name : QualifiedName} {q : QueryResult} {d t : Str}
    {records : List ChangeRecord} {rows : List RowData} {life : List Checkpoint}
    (h : Kept d t s life) (hs' : StoreOk s') (htarget : changedTable statement = some name)
    (hname : NamesTable session name d t)
    (hrun : runStatement env s session statement = (s', session', .ok q))
    (hlogs : Logs s.versions s'.versions d t records) (hrows : storeRows s' d t = some rows) :
    Kept d t s' (life ++ [⟨records, rows⟩]) := by
  obtain ⟨table, A, c, htable, hlife, hlast, hfit⟩ := h.table
  obtain ⟨⟨table', v', res⟩, htable', hv, hschema, evs, hevs, hmap⟩ :=
    runStatement_leadsOn h.ok htarget hname htable hrun
  obtain ⟨rs, hrs, hh⟩ := historyForTable_logEvents env s.versions d t evs
  obtain rfl : rs = records := by
    rw [Logs, hv, hevs, hh] at hlogs
    exact List.append_cancel_left hlogs
  obtain rfl : table'.heap.rows = rows := by
    rw [storeRows_of_some htable'] at hrows
    exact Option.some.inj hrows
  refine ⟨hs', ⟨table', life, _, htable', rfl, rfl, ?_⟩, ?_, ?_⟩
  · intro c' hc'
    rw [show table'.schema = table.schema from hschema]
    rcases List.mem_append.mp hc' with hc' | hc'
    · exact hfit c' hc'
    · rw [List.mem_singleton.mp hc', ← show table'.schema = table.schema from hschema]
      exact holdable_of_tableOk (tableOk_of_storeOk hs' htable')
  · obtain ⟨old, hold⟩ := h.history
    refine ⟨old, ?_⟩
    rw [show s'.versions.historyForTable d t = _ from hlogs, hold, recordsOf_append,
      recordsOf_singleton, List.append_assoc]
  · intro B b hprefix
    obtain heq | hbefore := List.prefix_concat_iff.mp hprefix
    · obtain ⟨rfl, hb⟩ := List.append_inj' heq rfl
      cases hb
      -- the records so far lead to the rows the statement has found
      have hsofar : LeadTo (recordsOf B) table.heap.rows := by
        rw [hlife, hlast]
        exact h.leads A c (hlife ▸ List.prefix_rfl)
      rw [recordsOf_append, recordsOf_singleton]
      exact hsofar.append hrs hmap
    · exact h.leads B b hbefore

theorem Kept.elsewhere {s s' : Store} {d t : Str} {life : List Checkpoint} (h : Kept d t s life)
    (hs' : StoreOk s')
    (hview : (storeTable s' d t).map (·.view) = (storeTable s d t).map (·.view))
    (hlogs : Logs s.versions s'.versions d t []) : Kept d t s' life := by
  obtain ⟨table, A, c, htable, hlife, hlast, hfit⟩ := h.table
  rw [htable] at hview
  obtain ⟨table', htable', hsame⟩ := Option.map_eq_some_iff.mp hview
  have hschema : table'.schema = table.schema := congrArg TableView.schema hsame
  have hheap : table'.heap = table.heap := congrArg TableView.heap hsame
  obtain ⟨old, hold⟩ := h.history
  refine ⟨hs', ⟨table', A, c, htable', hlife, by rw [hheap]; exact hlast, ?_⟩, ⟨old, ?_⟩, h.leads⟩
  · rw [hschema]
    exact hfit
  · rw [show s'.versions.historyForTable d t = _ from hlogs, List.append_nil, hold]

/-- **Along every incarnation the records up to a checkpoint lead to its
rows.** -/
theorem Incarnation.kept {d t : Str} {s : Store} {life : List Checkpoint}
    (h : Incarnation d t s life) : Kept d t s life := by
  induction h with
  | @created env s s' session session' stmt q records rows hs hval hname hrun hlogs hrows =>
      have hs' := runStatement_ok env hs session hval
      rw [hrun] at hs'
      exact kept_created hs' hname hrun hlogs hrows
  | @changed env s s' session session' statement name q records rows life _ hval htarget hname
      hrun hlogs hrows ih =>
      have hs' := runStatement_ok env ih.ok session hval
      rw [hrun] at hs'
      exact ih.changed hs' htarget hname hrun hlogs hrows
  | elsewhere _ hs htable hlogs ih => exact ih.elsewhere hs htable hlogs

/-! ## §4. Times between two statements. -/

/-- **The time `T` lies between two statements**: the records of the first `k`
checkpoints are not later than `T`, all others are. -/
def Boundary (life : List Checkpoint) (T : Str) (k : Nat) : Prop :=
  (∀ c ∈ life.take k, ∀ r ∈ c.records, r.timestamp ≤ T) ∧
    ∀ c ∈ life.drop k, ∀ r ∈ c.records, T < r.timestamp

/-- What `ReconstructTableStateAt` keeps of the records. -/
theorem Boundary.filter {life : List Checkpoint} {T : Str} {k : Nat} (h : Boundary life T k) :
    (recordsOf life).filter (fun r => !decide (T < r.timestamp)) = recordsOf (life.take k) := by
  conv_lhs => rw [← List.take_append_drop k life]
  rw [recordsOf_append, List.filter_append]
  have hfirst : (recordsOf (life.take k)).filter (fun r => !decide (T < r.timestamp))
      = recordsOf (life.take k) := by
    rw [List.filter_eq_self]
    intro r hr
    obtain ⟨c, hc, hrc⟩ := List.mem_flatMap.mp hr
    simpa using h.1 c hc r hrc
  have hrest : (recordsOf (life.drop k)).filter (fun r => !decide (T < r.timestamp)) = [] := by
    rw [List.filter_eq_nil_iff]
    intro r hr
    obtain ⟨c, hc, hrc⟩ := List.mem_flatMap.mp hr
    simpa using h.2 c hc r hrc
  rw [hfirst, hrest, List.append_nil]

theorem take_succ_of_getElem? {life : List Checkpoint} {k : Nat} {c : Checkpoint}
    (hc : life[k]? = some c) : life.take (k + 1) = life.take k ++ [c] := by
  rw [List.take_add_one, hc, Option.toList_some]

/-- The records up to a checkpoint lead to its rows. -/
theorem Kept.leadTo {d t : Str} {s : Store} {life : List Checkpoint} (h : Kept d t s life)
    {k : Nat} {c : Checkpoint} (hc : life[k]? = some c) :
    LeadTo (recordsOf (life.take (k + 1))) c.rows := by
  have htake := take_succ_of_getElem? hc
  rw [htake]
  exact h.leads (life.take k) c (htake ▸ List.take_prefix _ _)

/-- **The state at a time between two statements is the state between them.** -/
theorem Kept.reconstruct {d t : Str} {s : Store} {life : List Checkpoint} (h : Kept d t s life)
    {T : Str} {k : Nat} (hbound : Boundary life T (k + 1)) {c : Checkpoint}
    (hc : life[k]? = some c) : reconstructTableStateAt s.versions d t T = c.rows := by
  obtain ⟨old, hold⟩ := h.history
  obtain ⟨table, -, -, -, -, -, hfit⟩ := h.table
  unfold reconstructTableStateAt
  refine sortedRows_eq ?_ (hfit c (List.mem_of_getElem? hc)).ordered fun i => ?_
  · refine keyed_empty.foldl_applyRecord fun r hr => ?_
    exact h.ok.history r (List.mem_filter.mp (List.mem_filter.mp hr).1).1
  · rw [hold, List.filter_append, List.foldl_append, hbound.filter]
    exact h.leadTo hc _ i

/-- The time a REVERT names, in place of the timestamp it finds for it. -/
theorem reconstruct_revertTarget {stmt : RevertStatement} {d ts : Str} {v : VersionStore}
    (hmode : stmt.mode ≠ .latest) (h : revertTarget stmt d v = .ok (some ts)) :
    reconstructTableStateAt v d stmt.tableName.objectName ts
      = reconstructTableStateAt v d stmt.tableName.objectName stmt.timestamp := by
  unfold revertTarget at h
  cases hm : stmt.mode with
  | latest => exact absurd hm hmode
  | exact =>
      simp only [hm] at h
      by_cases hwell : isTimestamp stmt.timestamp = true
      · rw [if_pos hwell] at h
        split at h
        · cases h
          rfl
        · cases h
      · rw [if_neg hwell] at h
        cases h
  | atOrBefore =>
      simp only [hm] at h
      by_cases hwell : isTimestamp stmt.timestamp = true
      · rw [if_pos hwell] at h
        obtain ⟨hle, hnone⟩ := latestTimestampAtOrBefore_le (Result.ok.inj h)
        unfold reconstructTableStateAt
        congr 2
        refine List.filter_congr fun r hr => ?_
        -- no record lies between the timestamp found and the one named
        have hiff : ts < r.timestamp ↔ stmt.timestamp < r.timestamp := by
          rw [← not_le, ← not_le, not_iff_not]
          exact ⟨fun hr' => le_trans hr' hle, hnone r hr⟩
        simp only [hiff]
      · rw [if_neg hwell] at h
        cases h

/-- A REVERT to a time between two statements is carried out. -/
theorem Kept.revertApplies {d t : Str} {s : Store} {life : List Checkpoint} (h : Kept d t s life)
    {stmt : RevertStatement} (hobject : stmt.tableName.objectName = t)
    (hmode : stmt.mode = .atOrBefore) (hwell : isTimestamp stmt.timestamp = true) {k : Nat}
    (hbound : Boundary life stmt.timestamp (k + 1)) {c : Checkpoint} (hc : life[k]? = some c)
    {table : TableRuntime} (htable : storeTable s d t = some table) :
    RevertApplies stmt d table s.versions c.rows := by
  obtain ⟨table', -, -, htable', -, -, hfit⟩ := h.table
  obtain rfl : table' = table := Option.some.inj (htable'.symm.trans htable)
  -- there is a record at or before that time
  have hsome : (s.versions.latestTimestampAtOrBefore d t stmt.timestamp).isSome := by
    obtain ⟨r, hr⟩ := List.exists_mem_of_ne_nil _ (h.leadTo hc).ne_nil
    obtain ⟨b, hb, hrb⟩ := List.mem_flatMap.mp hr
    obtain ⟨old, hold⟩ := h.history
    refine latestTimestampAtOrBefore_isSome (r := r) ?_ (hbound.1 b hb r hrb)
    rw [hold]
    exact List.mem_append_right _ (List.mem_flatMap.mpr ⟨b, List.mem_of_mem_take hb, hrb⟩)
  obtain ⟨ts, hts⟩ := Option.isSome_iff_exists.mp hsome
  have htarget : revertTarget stmt d s.versions = .ok (some ts) := by
    unfold revertTarget
    rw [hmode]
    simp only [hwell, if_true, hobject, hts]
  refine ⟨ts, htarget, ?_, (hfit c (List.mem_of_getElem? hc)).shape,
    (hfit c (List.mem_of_getElem? hc)).indexable⟩
  rw [reconstruct_revertTarget (by rw [hmode]; decide) htarget, hobject]
  exact (h.reconstruct hbound hc).symm

/-! ## §5. REVERT. -/

theorem revertApplies_unique {stmt : RevertStatement} {d : Str} {table : TableRuntime}
    {v : VersionStore} {rows rows' : List RowData} (h : RevertApplies stmt d table v rows)
    (h' : RevertApplies stmt d table v rows') : rows = rows' := by
  obtain ⟨ts, hts, rfl, -⟩ := h
  obtain ⟨ts', hts', rfl, -⟩ := h'
  rw [hts] at hts'
  cases hts'
  rfl

/-- **A REVERT succeeds exactly when it applies, and leaves the rows it applies
to.** -/
theorem runStatement_revert (env : Env) {s : Store} {session : SessionContext}
    {stmt : RevertStatement} {d t : Str} {table : TableRuntime} (hs : StoreOk s)
    (hname : NamesTable session stmt.tableName d t) (htable : storeTable s d t = some table)
    (rows : List RowData) :
    (∃ s' session' q, runStatement env s session (.revert stmt) = (s', session', .ok q) ∧
      storeRows s' d t = some rows) ↔ RevertApplies stmt d table s.versions rows := by
  obtain ⟨db, hon⟩ := hname.onTable htable
  have hrun : runStatement env s session (.revert stmt)
      = ((withTable s session stmt.tableName (executeRevert env stmt)).1, session,
        (withTable s session stmt.tableName (executeRevert env stmt)).2) := rfl
  have hres : (withTable s session stmt.tableName (executeRevert env stmt)).2
      = (executeRevert env stmt d table s.versions).2.2 := by
    rw [withTable_onTable hon]
  have hleft := storeTable_withTable hon (executeRevert env stmt) d t
  rw [if_pos ⟨rfl, hname.object.symm⟩] at hleft
  rcases executeRevert_replaces env stmt (tableOk_of_storeOk hs htable) s.versions with
    ⟨rows', evs, ⟨happ, -⟩, ⟨-, hheap⟩, -, q, hq⟩ | ⟨hno, -, hne, -⟩
  · have hrows : storeRows (withTable s session stmt.tableName (executeRevert env stmt)).1 d t
        = some rows' := by
      rw [storeRows_of_some hleft, hheap]
      rfl
    constructor
    · rintro ⟨s', session', q', heq, hrows'⟩
      rw [hrun, Prod.mk.injEq] at heq
      rw [← heq.1, hrows] at hrows'
      cases hrows'
      exact happ
    · intro happ'
      obtain rfl := revertApplies_unique happ happ'
      exact ⟨_, session, q, by rw [hrun, hres, hq], hrows⟩
  · constructor
    · rintro ⟨s', session', q', heq, -⟩
      rw [hrun, Prod.mk.injEq, Prod.mk.injEq, hres] at heq
      exact absurd heq.2.2 (hne q')
    · intro happ
      exact absurd ⟨happ, rfl⟩ (hno rows _)

/-- `REVERT … AT_OR_BEFORE`. -/
def revertAtOrBefore (name : QualifiedName) (T : Str) : Statement :=
  .revert ⟨name, T, .atOrBefore⟩

/-- A statement that has succeeded is the next checkpoint. -/
theorem Incarnation.next {env : Env} {d t : Str} {s s' : Store} {life : List Checkpoint}
    (h : Incarnation d t s life) {session session' : SessionContext} {statement : Statement}
    {name : QualifiedName} {q : QueryResult} {rows : List RowData}
    (hval : validateStatement statement = .ok ())
    (htarget : changedTable statement = some name) (hname : NamesTable session name d t)
    (hrun : runStatement env s session statement = (s', session', .ok q))
    (hrows : storeRows s' d t = some rows) :
    ∃ records, Incarnation d t s' (life ++ [⟨records, rows⟩]) := by
  obtain ⟨table, -, -, htable, -⟩ := h.kept.table
  obtain ⟨⟨table', v', res⟩, -, hv, -, evs, hevs, -⟩ :=
    runStatement_leadsOn h.kept.ok htarget hname htable hrun
  obtain ⟨rs, -, hh⟩ := historyForTable_logEvents env s.versions d t evs
  refine ⟨rs, h.changed hval htarget hname hrun ?_ hrows⟩
  rw [Logs, hv, hevs, hh]

/-- A REVERT to a time between two statements brings back the rows of that
moment. -/
theorem Incarnation.revert {d t : Str} {s : Store} {life : List Checkpoint}
    (h : Incarnation d t s life) {T : Str} (hwell : isTimestamp T = true) {k : Nat}
    (hbound : Boundary life T (k + 1)) {c : Checkpoint} (hc : life[k]? = some c) (env : Env)
    {session : SessionContext} {name : QualifiedName} (hname : NamesTable session name d t) :
    ∃ s' session' q records,
      runStatement env s session (revertAtOrBefore name T) = (s', session', .ok q) ∧
        storeRows s' d t = some c.rows ∧ Incarnation d t s' (life ++ [⟨records, c.rows⟩]) := by
  obtain ⟨table, -, -, htable, -⟩ := h.kept.table
  have happ : RevertApplies ⟨name, T, .atOrBefore⟩ d table s.versions c.rows :=
    h.kept.revertApplies hname.object rfl hwell hbound hc htable
  obtain ⟨s', session', q, hrun, hrows⟩ :=
    (runStatement_revert env h.kept.ok hname htable c.rows).mpr happ
  obtain ⟨records, hnext⟩ := h.next rfl rfl hname hrun hrows
  exact ⟨s', session', q, records, hrun, hrows, hnext⟩

/-- The rows of the last checkpoint are those of the table. -/
theorem Kept.last {d t : Str} {s : Store} {life : List Checkpoint} (h : Kept d t s life) :
    ∃ c, life[life.length - 1]? = some c ∧ life.length = life.length - 1 + 1 ∧
      storeRows s d t = some c.rows := by
  obtain ⟨table, A, c, htable, rfl, hlast, -⟩ := h.table
  refine ⟨c, ?_, by simp, by rw [storeRows_of_some htable, hlast]⟩
  rw [List.length_append, List.length_singleton, Nat.add_sub_cancel, List.getElem?_concat_length]

/-- **REVERT to a statement boundary.**  Let the CREATE TABLE and the first `k`
statements lie at or before `T`, and all later ones behind it.  Then
`REVERT … AT_OR_BEFORE T` succeeds and leaves the rows, with their ids and in
their order, that the `k`-th statement has left.  And whatever statements
follow, a REVERT to a time just before this REVERT succeeds and leaves the rows
this REVERT has found. -/
theorem revert_to_boundary {d t : Str} {s : Store} {life : List Checkpoint}
    (h : Incarnation d t s life) {T : Str} (hwell : isTimestamp T = true) {k : Nat}
    (hbound : Boundary life T (k + 1)) {c : Checkpoint} (hc : life[k]? = some c) (env : Env)
    {session : SessionContext} {name : QualifiedName} (hname : NamesTable session name d t) :
    ∃ s' session' q records,
      runStatement env s session (revertAtOrBefore name T) = (s', session', .ok q) ∧
        storeRows s' d t = some c.rows ∧ Incarnation d t s' (life ++ [⟨records, c.rows⟩]) ∧
        ∀ s₁ later T₁ env₁ session₁ name₁,
          Incarnation d t s₁ (life ++ ⟨records, c.rows⟩ :: later) → isTimestamp T₁ = true →
          Boundary (life ++ ⟨records, c.rows⟩ :: later) T₁ life.length →
          NamesTable session₁ name₁ d t →
          ∃ s₂ session₂ q₂,
            runStatement env₁ s₁ session₁ (revertAtOrBefore name₁ T₁) = (s₂, session₂, .ok q₂) ∧
              storeRows s₂ d t = storeRows s d t := by
  obtain ⟨s', session', q, records, hrun, hrows, hnext⟩ := h.revert hwell hbound hc env hname
  refine ⟨s', session', q, records, hrun, hrows, hnext, ?_⟩
  intro s₁ later T₁ env₁ session₁ name₁ h₁ hwell₁ hbound₁ hname₁
  -- the checkpoint before this REVERT is the last of the life it has found
  obtain ⟨last, hlast, hlen, hfound⟩ := h.kept.last
  rw [hlen] at hbound₁
  have hat : (life ++ ⟨records, c.rows⟩ :: later)[life.length - 1]? = some last := by
    rw [List.getElem?_append_left (by omega), hlast]
  obtain ⟨s₂, session₂, q₂, -, hrun₂, hrows₂, -⟩ := h₁.revert hwell₁ hbound₁ hat env₁ hname₁
  exact ⟨s₂, session₂, q₂, hrun₂, hrows₂.trans hfound.symm⟩

/-! ## §6. A short life. -/

/-- A database without tables. -/
def emptyDatabase : Store :=
  (runStatement sampleEnv Store.empty ⟨str "a", []⟩ (.createDatabase (str "d"))).1

/-- The name of the table, for a session of the database. -/
def sampleName : QualifiedName := ⟨none, str "t"⟩

def tableSession : SessionContext := ⟨str "a", str "d"⟩

/-- `CREATE TABLE t (k INT)`. -/
def sampleCreate : CreateTableStatement := ⟨sampleName, [⟨str "k", .int64, false, false, none⟩]⟩

def createdTable : Store := (runStatement sampleEnv emptyDatabase tableSession
  (.createTable sampleCreate)).1

/-- `INSERT INTO t (k) VALUES (1), (2)`. -/
def sampleInsert : Statement :=
  .insert ⟨sampleName, [str "k"], [[.literal (.int 1)], [.literal (.int 2)]]⟩

def filledTable : Store := (runStatement sampleEnv createdTable tableSession sampleInsert).1

/-- The timestamp of the record with a number. -/
def stamp (n : Nat) : Str := generateTimestamp (sampleEnv.clock n)

/-- What CREATE TABLE and INSERT have logged, and the rows they have left. -/
def sampleLife : List Checkpoint :=
  [⟨[⟨.createTable, str "d", str "t", stamp 1, none, some (schemaOf (str "d") sampleCreate),
      none, none⟩], []⟩,
    ⟨[⟨.insertRow, str "d", str "t", stamp 2, some 0, none, none, some ⟨some 0, [.int 1]⟩⟩,
      ⟨.insertRow, str "d", str "t", stamp 3, some 1, none, none, some ⟨some 1, [.int 2]⟩⟩],
      [⟨some 0, [.int 1]⟩, ⟨some 1, [.int 2]⟩]⟩]

theorem sampleName_names : NamesTable tableSession sampleName (str "d") (str "t") := by
  constructor <;> decide

/-- A run that succeeds, with what it leaves. -/
theorem runStatement_of_isOk {env : Env} {s : Store} {session : SessionContext}
    {statement : Statement} (h : (runStatement env s session statement).2.2.isOk = true) :
    ∃ session' q, runStatement env s session statement
      = ((runStatement env s session statement).1, session', .ok q) := by
  generalize runStatement env s session statement = r at h ⊢
  obtain ⟨s', session', res⟩ := r
  cases res with
  | ok q => exact ⟨session', q, rfl⟩
  | error e => cases h
  | fault => cases h

set_option maxRecDepth 4000 in
theorem incarnation_sampleLife : Incarnation (str "d") (str "t") filledTable sampleLife := by
  have hempty : StoreOk emptyDatabase := runStatement_ok sampleEnv storeOk_empty _ rfl
  obtain ⟨session₁, q₁, hcreate⟩ := runStatement_of_isOk (show (runStatement sampleEnv emptyDatabase
    tableSession (.createTable sampleCreate)).2.2.isOk = true by decide)
  obtain ⟨session₂, q₂, hinsert⟩ := runStatement_of_isOk (show (runStatement sampleEnv createdTable
    tableSession sampleInsert).2.2.isOk = true by decide)
  have hcreated : Incarnation (str "d") (str "t") createdTable (sampleLife.take 1) :=
    .created hempty (by decide) sampleName_names hcreate
      (by unfold Logs; decide) (by decide)
  exact .changed hcreated (by decide) rfl sampleName_names hinsert
    (by unfold Logs; decide) (by decide)

/-- Reverted to the time of its creation, the table is empty; reverted again, it
has its two rows. -/
theorem revert_to_boundary_sample :
    ∃ s' session' q records,
      runStatement sampleEnv filledTable tableSession (revertAtOrBefore sampleName (stamp 1))
        = (s', session', .ok q) ∧
      storeRows s' (str "d") (str "t") = some [] ∧
      Incarnation (str "d") (str "t") s' (sampleLife ++ [⟨records, []⟩]) := by
  obtain ⟨s', session', q, records, hrun, hrows, hnext, -⟩ :=
    revert_to_boundary incarnation_sampleLife (T := stamp 1) (k := 0) (by decide)
      ⟨by decide, by decide⟩ rfl sampleEnv sampleName_names
  exact ⟨s', session', q, records, hrun, hrows, hnext⟩

/-! ## §7. Times inside a statement. -/

/-- A REVERT to a time has found a record at or before it. -/
theorem revertTarget_record {stmt : RevertStatement} {d ts : Str} {v : VersionStore}
    (hmode : stmt.mode ≠ .latest) (h : revertTarget stmt d v = .ok (some ts)) :
    ∃ r ∈ v.historyForTable d stmt.tableName.objectName, r.timestamp ≤ stmt.timestamp := by
  unfold revertTarget at h
  cases hm : stmt.mode with
  | latest => exact absurd hm hmode
  | exact =>
      simp only [hm] at h
      split at h
      · split at h
        · rename_i hexact
          obtain ⟨r, hr, heq⟩ := List.any_eq_true.mp hexact
          exact ⟨r, hr, le_of_eq (of_decide_eq_true heq)⟩
        · cases h
      · cases h
  | atOrBefore =>
      simp only [hm] at h
      split at h
      · obtain hnone | ⟨r, hr, -⟩ := latestOf_mem (Result.ok.inj h)
        · cases hnone
        · obtain ⟨hr, hle⟩ := List.mem_filter.mp hr
          exact ⟨r, hr, of_decide_eq_true hle⟩
      · cases h

/-- Beyond the last checkpoint there is nothing to count. -/
theorem Boundary.min_length {life : List Checkpoint} {T : Str} {k : Nat}
    (h : Boundary life T k) : Boundary life T (min k life.length) := by
  by_cases hk : k ≤ life.length
  · rw [Nat.min_eq_left hk]
    exact h
  · rw [Nat.min_eq_right (by omega)]
    unfold Boundary at h ⊢
    rw [List.take_of_length_le (by omega), List.drop_eq_nil_of_le (by omega)] at h
    rw [List.take_length, List.drop_length]
    exact h

/-- The content of a table at a time between two statements is that of a
checkpoint, where a record tells of such a time. -/
theorem Kept.checkpoint_of_boundary {d t : Str} {s : Store} {life : List Checkpoint}
    (h : Kept d t s life) {T : Str} {k : Nat} (hbound : Boundary life T k)
    (hrecord : ∃ r ∈ recordsOf life, r.timestamp ≤ T) :
    ∃ c ∈ life, reconstructTableStateAt s.versions d t T = c.rows := by
  replace hbound := hbound.min_length
  cases hk : min k life.length with
  | zero =>
      -- all records are later
      obtain ⟨r, hr, hle⟩ := hrecord
      obtain ⟨c, hc, hrc⟩ := List.mem_flatMap.mp hr
      rw [hk] at hbound
      exact absurd (hbound.2 c (by rw [List.drop_zero]; exact hc) r hrc) (not_lt.mpr hle)
  | succ n =>
      have hn : n < life.length := by omega
      rw [hk] at hbound
      have hc : life[n]? = some life[n] := List.getElem?_eq_getElem hn
      exact ⟨life[n], List.getElem_mem hn, h.reconstruct hbound hc⟩

/-- **REVERT and row events.**  Of a table that has been created once, a REVERT
that succeeds leaves what the records at or before the time it names lead to.
Where that time does not fall inside a statement, these are the rows some
statement has left. -/
theorem revert_to_events {d t : Str} {s : Store} {life : List Checkpoint}
    (h : Incarnation d t s life) (hfirst : s.versions.historyForTable d t = recordsOf life)
    {session : SessionContext} {stmt : RevertStatement}
    (hname : NamesTable session stmt.tableName d t) (hmode : stmt.mode ≠ .latest) {env : Env}
    {s' : Store} {session' : SessionContext} {q : QueryResult}
    (hrun : runStatement env s session (.revert stmt) = (s', session', .ok q)) :
    ∃ rows, storeRows s' d t = some rows ∧
      (∀ i, rowAt rows i = (((recordsOf life).filter fun r =>
        decide (r.timestamp ≤ stmt.timestamp)).foldl applyRecord Dict.empty).find? i) ∧
      ((∃ k, Boundary life stmt.timestamp k) → ∃ c ∈ life, rows = c.rows) := by
  have hkept := h.kept
  obtain ⟨table, -, -, htable, -⟩ := hkept.table
  obtain ⟨r, hleft, -⟩ := runStatement_leadsOn hkept.ok rfl hname htable hrun
  have hrows := storeRows_of_some hleft
  obtain ⟨ts, htarget, hstate, -⟩ :=
    (runStatement_revert env hkept.ok hname htable _).mp ⟨s', session', q, hrun, hrows⟩
  have hrecord := revertTarget_record hmode htarget
  rw [reconstruct_revertTarget hmode htarget, hname.object] at hstate
  rw [hname.object, hfirst] at hrecord
  refine ⟨_, hrows, fun i => ?_, ?_⟩
  · have hkeyed : Keyed (((s.versions.historyForTable d t).filter
        fun r => !decide (stmt.timestamp < r.timestamp)).foldl applyRecord Dict.empty) :=
      keyed_empty.foldl_applyRecord fun r hr =>
        hkept.ok.history r (List.mem_filter.mp (List.mem_filter.mp hr).1).1
    rw [hstate, reconstructTableStateAt, rowAt_sortedRows hkeyed, hfirst]
    congr 2
    refine List.filter_congr fun r _ => ?_
    rw [← decide_not, decide_eq_decide]
    exact not_lt
  · rintro ⟨k, hbound⟩
    rw [hstate]
    exact hkept.checkpoint_of_boundary hbound hrecord

/-- Reverted to the time of the last row event, the table is that of the INSERT. -/
theorem revert_to_events_sample :
    ∃ s' session' q, runStatement sampleEnv filledTable tableSession
        (.revert ⟨sampleName, stamp 3, .exact⟩) = (s', session', .ok q) ∧
      ∃ c ∈ sampleLife, storeRows s' (str "d") (str "t") = some c.rows := by
  obtain ⟨session', q, hrun⟩ := runStatement_of_isOk (show (runStatement sampleEnv filledTable
    tableSession (.revert ⟨sampleName, stamp 3, .exact⟩)).2.2.isOk = true by decide)
  obtain ⟨rows, hrows, -, hwhole⟩ := revert_to_events incarnation_sampleLife (by decide)
    sampleName_names (by decide) hrun
  obtain ⟨c, hc, rfl⟩ := hwhole ⟨2, by decide, by decide⟩
  exact ⟨_, session', q, hrun, c, hc, hrows⟩

/-- **Half an INSERT.**  Reverted to the time of its first row event, a table
with an INSERT of two rows has one row, which it never had after a statement. -/
theorem revert_inside_insert :
    ¬ ∀ (d t : Str) (s : Store) (life : List Checkpoint), Incarnation d t s life →
      s.versions.historyForTable d t = recordsOf life →
      ∀ (session : SessionContext) (stmt : RevertStatement),
        NamesTable session stmt.tableName d t → stmt.mode ≠ .latest →
        ∀ (env : Env) (s' : Store) (session' : SessionContext) (q : QueryResult),
          runStatement env s session (.revert stmt) = (s', session', .ok q) →
          ∃ rows, storeRows s' d t = some rows ∧ (rows = [] ∨ ∃ c ∈ life, rows = c.rows) := by
  intro hall
  obtain ⟨session', q, hrun⟩ := runStatement_of_isOk (show (runStatement sampleEnv filledTable
    tableSession (.revert ⟨sampleName, stamp 2, .exact⟩)).2.2.isOk = true by decide)
  obtain ⟨rows, hrows, hsome⟩ := hall _ _ _ _ incarnation_sampleLife (by decide)
    tableSession ⟨sampleName, stamp 2, .exact⟩ sampleName_names (by decide) _ _ _ _ hrun
  have hhalf : storeRows (runStatement sampleEnv filledTable tableSession
      (.revert ⟨sampleName, stamp 2, .exact⟩)).1 (str "d") (str "t")
        = some [⟨some 0, [.int 1]⟩] := by decide
  obtain rfl : [⟨some 0, [.int 1]⟩] = rows := Option.some.inj (hhalf.symm.trans hrows)
  revert hsome
  decide

end CustomDbms.Core
