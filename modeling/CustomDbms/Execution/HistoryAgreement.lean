/-
  CustomDbms.Execution.HistoryAgreement
  ─────────────────────────────────────
  **THE CHANGE LOG AGREES WITH THE HEAPS.**

  `Agrees` says that replaying the records of a table, from its creation on,
  gives the rows of its heap.  Every statement keeps that, whatever it
  returns, unless it has logged row events and then fails: `UPDATE`, `DELETE`
  and `REVERT` log while they compute and replace the heap at the very end
  (`LogsAndFails`).

    • `Agrees.reconstruct` — the state at the latest timestamp is the heap.
    • `execute_agrees` — the step lemma.
-/
import CustomDbms.Execution.TableRules

namespace CustomDbms.Execution

open CustomDbms.Common CustomDbms.Catalog CustomDbms.Core CustomDbms.Index CustomDbms.Lib
open CustomDbms.Parser CustomDbms.Storage CustomDbms.Versioning

/-! ## §1. Replaying the records of a table. -/

/-- The rows the records of a table lead to. -/
def replay (v : VersionStore) (d t : Str) : Dict RowId RowData :=
  (v.historyForTable d t).foldl applyRecord Dict.empty

/-- The records of a table and a list of rows tell the same. -/
structure AgreesAt (v : VersionStore) (d t : Str) (rows : List RowData) : Prop where
  recorded : v.historyForTable d t ≠ []
  rows : ∀ i, (replay v d t).find? i = rowAt rows i

/-- **The log and the heaps agree.** -/
def Agrees (s : Store) : Prop :=
  ∀ d db t table, s.runtime.databases.find? d = some db → db.tables.find? t = some table →
    AgreesAt s.versions d t table.heap.rows

theorem keyed_replay {v : VersionStore} (h : HistoryOk v) (d t : Str) : Keyed (replay v d t) :=
  keyed_empty.foldl_applyRecord fun r hr => h r (List.mem_filter.mp hr).1

/-- **The state at the latest timestamp is the heap.** -/
theorem AgreesAt.reconstruct {v : VersionStore} {d t : Str} {rows : List RowData}
    (h : AgreesAt v d t rows) (hv : HistoryOk v) (hrows : RowsOrdered rows) :
    ∃ ts, v.latestTimestampForTable d t = some ts ∧ reconstructTableStateAt v d t ts = rows := by
  obtain ⟨ts, hts⟩ := Option.isSome_iff_exists.mp (latestTimestamp_isSome h.recorded)
  refine ⟨ts, hts, ?_⟩
  -- no record is later, so none is left out
  have hall : (v.historyForTable d t).filter (fun r => !decide (ts < r.timestamp))
      = v.historyForTable d t := by
    rw [List.filter_eq_self]
    intro r hr
    simpa using le_latestTimestamp hts r hr
  rw [reconstructTableStateAt, hall]
  exact sortedRows_eq (keyed_replay hv d t) hrows h.rows

/-! ## §2. Appending records. -/

theorem historyForTable_appendChangeEvent (env : Env) (v : VersionStore) (kind : ChangeKind)
    (d t : Str) (schema : Option TableSchema) (before after : Option RowData) (d' t' : Str) :
    ∃ r : ChangeRecord, r.kind = kind ∧ r.beforeRow = before ∧ r.afterRow = after ∧
      (appendChangeEvent env v kind d t schema before after).historyForTable d' t'
        = v.historyForTable d' t' ++ if d = d' ∧ t = t' then [r] else [] := by
  refine ⟨_, ?_, ?_, ?_, historyForTable_append d' t'⟩ <;> rfl

/-- A record of the table is applied to what the earlier ones lead to. -/
theorem replay_append (env : Env) (v : VersionStore) (kind : ChangeKind) (d t : Str)
    (schema : Option TableSchema) (before after : Option RowData) :
    ∃ r : ChangeRecord, r.kind = kind ∧ r.beforeRow = before ∧ r.afterRow = after ∧
      replay (appendChangeEvent env v kind d t schema before after) d t
        = applyRecord (replay v d t) r := by
  obtain ⟨r, hk, hb, ha, hh⟩ :=
    historyForTable_appendChangeEvent env v kind d t schema before after d t
  refine ⟨r, hk, hb, ha, ?_⟩
  rw [replay, hh, if_pos ⟨rfl, rfl⟩, List.foldl_append]
  rfl

/-- A record of one table says nothing about another. -/
theorem AgreesAt.append_other (env : Env) (kind : ChangeKind) {v : VersionStore} {d t : Str}
    (schema : Option TableSchema) (before after : Option RowData) {d' t' : Str}
    {rows : List RowData} (h : AgreesAt v d' t' rows) (hne : ¬ (d = d' ∧ t = t')) :
    AgreesAt (appendChangeEvent env v kind d t schema before after) d' t' rows := by
  obtain ⟨r, -, -, -, hh⟩ :=
    historyForTable_appendChangeEvent env v kind d t schema before after d' t'
  rw [if_neg hne, List.append_nil] at hh
  exact ⟨hh ▸ h.recorded, fun i => by rw [replay, hh]; exact h.rows i⟩

theorem recorded_append {env : Env} {v : VersionStore} {kind : ChangeKind} {d t : Str}
    {schema : Option TableSchema} {before after : Option RowData} :
    (appendChangeEvent env v kind d t schema before after).historyForTable d t ≠ [] := by
  obtain ⟨r, -, -, -, hh⟩ :=
    historyForTable_appendChangeEvent env v kind d t schema before after d t
  rw [hh, if_pos ⟨rfl, rfl⟩]
  simp

/-- A table is created without rows. -/
theorem agreesAt_created (env : Env) (v : VersionStore) (d t : Str) (schema : Option TableSchema) :
    AgreesAt (appendChangeEvent env v .createTable d t schema none none) d t [] := by
  refine ⟨recorded_append, fun i => ?_⟩
  obtain ⟨r, hk, -, -, hr⟩ := replay_append env v .createTable d t schema none none
  rw [hr, applyRecord, hk]
  rfl

/-- A record as it is written for a row event, whenever that is. -/
def RecordOf (r : ChangeRecord) (ev : RowEvent) : Prop :=
  r.kind = ev.kind ∧ r.beforeRow = ev.before ∧ r.afterRow = ev.after

/-- The record of an event acts on the map of the rows as the event does. -/
theorem find?_applyRecord {r : ChangeRecord} {ev : RowEvent} (h : RecordOf r ev)
    (m : Dict RowId RowData) (i : RowId) :
    (applyRecord m r).find? i = applyEvent (fun i => m.find? i) ev i := by
  obtain ⟨hk, hb, ha⟩ := h
  rw [applyEvent, Function.update_apply]
  unfold applyRecord
  cases ev with
  | inserted row =>
      rw [hk, ha]
      exact Dict.find?_assign
  | updated row row' =>
      rw [hk, ha]
      exact Dict.find?_assign
  | deleted row =>
      rw [hk, hb]
      exact Dict.find?_erase

theorem find?_foldl_applyRecord {rs : List ChangeRecord} {evs : List RowEvent}
    (h : List.Forall₂ RecordOf rs evs) (m : Dict RowId RowData) :
    (fun i => (rs.foldl applyRecord m).find? i) = applyEvents (fun i => m.find? i) evs := by
  induction h generalizing m with
  | nil => rfl
  | @cons r ev rs evs hr _ ih =>
      rw [List.foldl_cons, ih]
      show _ = applyEvents (applyEvent _ ev) evs
      congr 1
      funext i
      exact find?_applyRecord hr m i

/-- Row events of a table add their records to its history. -/
theorem historyForTable_logEvents (env : Env) (v : VersionStore) (d t : Str)
    (evs : List RowEvent) :
    ∃ rs, List.Forall₂ RecordOf rs evs ∧
      (logEvents env d t v evs).historyForTable d t = v.historyForTable d t ++ rs := by
  induction evs generalizing v with
  | nil => exact ⟨[], .nil, by simp⟩
  | cons ev evs ih =>
      obtain ⟨r, hk, hb, ha, hh⟩ :=
        historyForTable_appendChangeEvent env v ev.kind d t none ev.before ev.after d t
      obtain ⟨rs, hrs, hall⟩ := ih (appendChangeEvent env v ev.kind d t none ev.before ev.after)
      refine ⟨r :: rs, .cons ⟨hk, hb, ha⟩ hrs, ?_⟩
      rw [logEvents_cons, hall, hh, if_pos ⟨rfl, rfl⟩, List.append_assoc, List.singleton_append]

theorem replay_logEvents (env : Env) (v : VersionStore) (d t : Str) (evs : List RowEvent) :
    (fun i => (replay (logEvents env d t v evs) d t).find? i)
      = applyEvents (fun i => (replay v d t).find? i) evs := by
  obtain ⟨rs, hrs, hh⟩ := historyForTable_logEvents env v d t evs
  unfold replay
  rw [hh, List.foldl_append]
  exact find?_foldl_applyRecord hrs _

/-- **Row events lead from the rows of the table to the rows they describe.** -/
theorem AgreesAt.logEvents (env : Env) {v : VersionStore} {d t : Str} {rows rows' : List RowData}
    (h : AgreesAt v d t rows) {evs : List RowEvent}
    (hevs : applyEvents (rowAt rows) evs = rowAt rows') :
    AgreesAt (logEvents env d t v evs) d t rows' := by
  refine ⟨?_, fun i => ?_⟩
  · obtain ⟨rs, -, hh⟩ := historyForTable_logEvents env v d t evs
    rw [hh]
    simp [h.recorded]
  · have hmap := congrFun (replay_logEvents env v d t evs) i
    rw [show (fun i => (replay v d t).find? i) = rowAt rows from funext h.rows, hevs] at hmap
    exact hmap

/-! ## §3. Statements on one table. -/

/-- What a statement logs and leaves of its table: row events of the table that
lead from its rows to the rows it leaves. -/
def Logged (env : Env) (d t : Str) (table : TableRuntime) (v : VersionStore)
    (r : TableRuntime × VersionStore × Result QueryResult) : Prop :=
  ∃ evs, r.2.1 = logEvents env d t v evs ∧
    applyEvents (rowAt table.heap.rows) evs = rowAt r.1.heap.rows

theorem logged_same (env : Env) (d t : Str) (table : TableRuntime) (v : VersionStore)
    (res : Result QueryResult) : Logged env d t table v (table, v, res) := ⟨[], rfl, rfl⟩

/-- The rows of an `INSERT`, as far as it got. -/
theorem insertRows_logged (env : Env) {d t : Str} (map : List Nat)
    (inputs : List (List Expression)) {table : TableRuntime} {v : VersionStore}
    (h : TableOk d t table) :
    ∃ evs, (insertRows env d map inputs table v).2.1 = logEvents env d t v evs ∧
      applyEvents (rowAt table.heap.rows) evs
        = rowAt (insertRows env d map inputs table v).1.heap.rows := by
  induction inputs generalizing table v with
  | nil => exact ⟨[], rfl, rfl⟩
  | cons input inputs ih =>
      rw [insertRows]
      cases hrow : admitRow table map input with
      | error e => exact ⟨[], rfl, rfl⟩
      | fault => exact ⟨[], rfl, rfl⟩
      | ok row =>
          obtain ⟨hid, hlen, hnew⟩ := admitRow_ok h hrow
          obtain ⟨table', hrun, hok, -, hrows⟩ := storeRow_ok env v h hid hlen hnew
          simp only [hrun]
          obtain ⟨evs, hv, hmap⟩ := ih (v := appendChangeEvent env v .insertRow d
            table.schema.tableName none none
            (some { row with rowId := some table.heap.nextRowId })) hok
          refine ⟨.inserted { row with rowId := some table.heap.nextRowId } :: evs, ?_, ?_⟩
          · rw [hv, logEvents_cons, h.schema.table]
            rfl
          · rw [← hmap, hrows]
            show applyEvents (applyEvent _ _) evs = _
            congr 1
            -- the new id is not one of the old ones
            have hnd := hok.heap.ordered.nodup
            rw [hrows, List.map_append, List.nodup_append] at hnd
            funext i
            rw [applyEvent, Function.update_apply, rowAt_append, rowAt_cons]
            by_cases hi : i = some table.heap.nextRowId
            · subst hi
              have hnone : rowAt table.heap.rows (some table.heap.nextRowId) = none :=
                rowAt_eq_none.mpr fun hmem => hnd.2.2 _ hmem _ (by simp) rfl
              simp [RowEvent.rowId, RowEvent.after, hnone]
            · simp [RowEvent.rowId, hi, Ne.symm hi]

theorem executeInsert_logged (env : Env) {stmt : InsertStatement} {d t : Str}
    {table : TableRuntime} {v : VersionStore} (h : TableOk d t table) :
    Logged env d t table v (executeInsert env stmt d table v) := by
  unfold executeInsert
  cases insertColumnMap table.schema stmt.columnNames with
  | error e => exact logged_same env d t table v _
  | fault => exact logged_same env d t table v _
  | ok map => exact insertRows_logged env map stmt.rows h

/-- A statement that replaces rows and does not fail behind its first event. -/
theorem Replaces.logged {env : Env} {d t : Str} {table : TableRuntime} {v : VersionStore}
    {applies : List RowData → List RowEvent → Prop} {starts : List RowEvent → Prop}
    {r : TableRuntime × VersionStore × Result QueryResult}
    (h : Replaces table (logEvents env d t v) applies starts r)
    (happ : ∀ rows evs, applies rows evs → applyEvents (rowAt table.heap.rows) evs = rowAt rows)
    (hstops : ∀ evs, starts evs → evs ≠ [] → ∃ rows evs', applies rows evs') :
    Logged env d t table v r := by
  rcases h with ⟨rows, evs, hrows, ⟨-, hheap⟩, hv, -⟩ | ⟨hno, htab, -, evs, hevs, hv⟩
  · exact ⟨evs, hv, by rw [hheap]; exact happ rows evs hrows⟩
  · have hnil : evs = [] := by
      rcases hevs with hnil | hstart
      · exact hnil
      · by_contra hne
        obtain ⟨rows, evs', hrows⟩ := hstops evs hstart hne
        exact hno rows evs' hrows
    exact ⟨evs, hv, by rw [hnil, htab]; rfl⟩

/-- **The statement logs row events and then fails**: an `UPDATE` or `DELETE`
that has changed a row and cannot be carried out, or a `REVERT` to rows that
cannot be indexed. -/
def LogsAndFails (env : Env) (s : Store) (session : SessionContext) : Statement → Prop
  | .update stmt => ∃ d db table evs, OnTable s session stmt.tableName d db table ∧
      UpdateStarts env.regexMatch stmt table evs ∧ evs ≠ [] ∧
      ∀ rows evs', ¬ UpdateApplies env.regexMatch stmt table rows evs'
  | .delete stmt => ∃ d db table evs, OnTable s session stmt.tableName d db table ∧
      DeleteStarts env.regexMatch stmt table evs ∧ evs ≠ [] ∧
      ∀ rows evs', ¬ DeleteApplies env.regexMatch stmt table rows evs'
  | .revert stmt => ∃ d db table evs, OnTable s session stmt.tableName d db table ∧
      RevertStarts stmt d table s.versions evs ∧ evs ≠ [] ∧
      ∀ rows, ¬ RevertApplies stmt d table s.versions rows
  | _ => False

theorem executeUpdate_logged (env : Env) {stmt : UpdateStatement} {d t : Str}
    {table : TableRuntime} {v : VersionStore} (h : TableOk d t table)
    (hno : ∀ evs, UpdateStarts env.regexMatch stmt table evs → evs ≠ [] →
      ∃ rows evs', UpdateApplies env.regexMatch stmt table rows evs') :
    Logged env d t table v (executeUpdate env stmt d table v) := by
  have hrep := executeUpdate_replaces env stmt h v
  rw [h.schema.table] at hrep
  exact hrep.logged (fun rows evs happ => applyEvents_update happ.1 h.heap.ordered.nodup) hno

theorem executeDelete_logged (env : Env) {stmt : DeleteStatement} {d t : Str}
    {table : TableRuntime} {v : VersionStore} (h : TableOk d t table)
    (hno : ∀ evs, DeleteStarts env.regexMatch stmt table evs → evs ≠ [] →
      ∃ rows evs', DeleteApplies env.regexMatch stmt table rows evs') :
    Logged env d t table v (executeDelete env stmt d table v) := by
  have hrep := executeDelete_replaces env stmt h v
  rw [h.schema.table] at hrep
  exact hrep.logged (fun rows evs happ => applyEvents_delete happ h.heap.ordered.nodup) hno

theorem executeRevert_logged (env : Env) {stmt : RevertStatement} {d t : Str}
    {table : TableRuntime} {v : VersionStore} (h : TableOk d t table) (hv : HistoryOk v)
    (hno : ∀ evs, RevertStarts stmt d table v evs → evs ≠ [] →
      ∃ rows, RevertApplies stmt d table v rows) :
    Logged env d t table v (executeRevert env stmt d table v) := by
  have hrep := executeRevert_replaces env stmt h v
  rw [h.schema.table] at hrep
  refine hrep.logged ?_ fun evs hstart hne => ?_
  · rintro rows evs ⟨⟨ts, -, rfl, -⟩, rfl⟩
    exact applyEvents_revert h.heap.ordered.nodup (hv.reconstruct _ _ _).nodup
  · obtain ⟨rows, happ⟩ := hno evs hstart hne
    exact ⟨rows, _, happ, rfl⟩

/-! ## §4. Statements on the store. -/

/-- Agreement as a property of a table. -/
def AgreesView : TableProperty := fun v d t w => AgreesAt v d t w.heap.rows

theorem agrees_iff {s : Store} : Agrees s ↔ EachTable AgreesView s := Iff.rfl

theorem agreesView_local (env : Env) : Local env AgreesView := by
  intro v kind d t schema before after d' t' w hne h
  exact h.append_other env kind schema before after hne

theorem agreesView_new (env : Env) : HoldsNew env AgreesView := by
  intro v d t schema
  exact agreesAt_created env v d t (some schema)

/-- A statement that logs what it does to the rows. -/
theorem Agrees.leaves {env : Env} {s : Store} (h : Agrees s) {session : SessionContext}
    {name : QualifiedName}
    {f : Str → TableRuntime → VersionStore → TableRuntime × VersionStore × Result QueryResult}
    (hf : ∀ d db table, OnTable s session name d db table →
      Logged env d name.objectName table s.versions (f d table s.versions)) :
    Leaves env AgreesView s session name f := by
  intro d db table hon
  obtain ⟨evs, hv, hmap⟩ := hf d db table hon
  exact ⟨evs, hv, (h d db _ table hon.found hon.table).logEvents env hmap⟩

/-- Agreement depends on the rows of the tables. -/
theorem agrees_of_view {s s' : Store} (h : Agrees s) (hview : s'.runtime.view = s.runtime.view)
    (hv : s'.versions = s.versions) : Agrees s' :=
  EachTable.of_view (agrees_iff.mp h) hview hv

/-- **Every statement keeps log and heaps in agreement, unless it logs and
fails.** -/
theorem execute_agrees (env : Env) {s : Store} (hok : StoreOk s) (h : Agrees s)
    (session : SessionContext) {statement : Statement} (detail : Str)
    (hno : ¬ LogsAndFails env s session statement) :
    Agrees (execute env s session statement detail).1 := by
  have htab : ∀ {name d db table}, OnTable s session name d db table →
      TableOk d name.objectName table := fun hon => (hok.state _ _ hon.found).tables _ _ hon.table
  apply EachTable.execute hok.state (agreesView_local env) (agreesView_new env).created
    (agrees_iff.mp h)
  · intro stmt _
    exact h.leaves fun d db table hon => executeInsert_logged env (htab hon)
  · rintro stmt rfl
    refine h.leaves fun d db table hon => executeUpdate_logged env (htab hon) ?_
    intro evs hstart hne
    by_contra hnone
    push Not at hnone
    exact hno ⟨d, db, table, evs, hon, hstart, hne, hnone⟩
  · rintro stmt rfl
    refine h.leaves fun d db table hon => executeDelete_logged env (htab hon) ?_
    intro evs hstart hne
    by_contra hnone
    push Not at hnone
    exact hno ⟨d, db, table, evs, hon, hstart, hne, hnone⟩
  · rintro stmt rfl
    refine h.leaves fun d db table hon => executeRevert_logged env (htab hon) hok.history ?_
    intro evs hstart hne
    by_contra hnone
    push Not at hnone
    exact hno ⟨d, db, table, evs, hon, hstart, hne, hnone⟩

/-- The rule for one of the statements that replace rows. -/
theorem Replaces.applies_of_ok {table : TableRuntime} {log : List RowEvent → VersionStore}
    {applies : List RowData → List RowEvent → Prop} {starts : List RowEvent → Prop}
    {r : TableRuntime × VersionStore × Result QueryResult} (h : Replaces table log applies starts r)
    {q : QueryResult} (hq : r.2.2 = .ok q) : ∃ rows evs, applies rows evs := by
  rcases h with ⟨rows, evs, happ, -⟩ | ⟨-, -, hne, -⟩
  · exact ⟨rows, evs, happ⟩
  · exact absurd hq (hne q)

/-- A statement that succeeds is not one that logs and fails. -/
theorem not_logsAndFails_of_ok {env : Env} {s : Store} (hok : StoreOk s)
    {session : SessionContext} {statement : Statement} {detail : Str} {q : QueryResult}
    (hq : (execute env s session statement detail).2.2 = .ok q) :
    ¬ LogsAndFails env s session statement := by
  have htab : ∀ {name d db table}, OnTable s session name d db table →
      TableOk d name.objectName table := fun hon => (hok.state _ _ hon.found).tables _ _ hon.table
  cases statement with
  | update stmt =>
      rintro ⟨d, db, table, evs, hon, -, -, hno⟩
      simp only [execute, withTable_onTable hon] at hq
      obtain ⟨rows, evs', happ⟩ :=
        (executeUpdate_replaces env stmt (htab hon) s.versions).applies_of_ok hq
      exact hno rows evs' happ
  | delete stmt =>
      rintro ⟨d, db, table, evs, hon, -, -, hno⟩
      simp only [execute, withTable_onTable hon] at hq
      obtain ⟨rows, evs', happ⟩ :=
        (executeDelete_replaces env stmt (htab hon) s.versions).applies_of_ok hq
      exact hno rows evs' happ
  | revert stmt =>
      rintro ⟨d, db, table, evs, hon, -, -, hno⟩
      simp only [execute, withTable_onTable hon] at hq
      obtain ⟨rows, evs', happ, -⟩ :=
        (executeRevert_replaces env stmt (htab hon) s.versions).applies_of_ok hq
      exact hno rows happ
  | _ => exact id

/-- **`REVERT … LATEST` changes nothing where log and heap agree.** -/
theorem revert_latest_same (env : Env) {s : Store} (hok : StoreOk s) (h : Agrees s)
    (session : SessionContext) {stmt : RevertStatement} (hmode : stmt.mode = .latest)
    (detail : Str) : SameStore s (execute env s session (.revert stmt) detail).1 := by
  by_contra hnot
  rcases withTable_cases s session stmt.tableName with ⟨d, db, table, hon⟩ | ⟨-, hsame⟩
  · have htab := (hok.state d db hon.found).tables _ _ hon.table
    obtain ⟨ts, hts, hrows⟩ := (h d db _ table hon.found hon.table).reconstruct hok.history
      htab.heap.ordered
    have happ : RevertApplies stmt d table s.versions table.heap.rows :=
      ⟨ts, by simp [revertTarget, hmode, hts], hrows.symm, htab.shape, fun n hn => htab.indexable hn⟩
    have hrep := executeRevert_replaces env stmt htab s.versions
    rcases hrep with ⟨rows, evs, ⟨happ', hevs⟩, -, -, hq⟩ | ⟨hno, -⟩
    · have hval : validateStatement (.revert stmt) = .ok () := rfl
      have hch := (changesStore_iff env hok session hval detail).mp
        ⟨by obtain ⟨q, hq⟩ := hq; exact ⟨q, by simp [execute, withTable_onTable hon, hq]⟩, hnot⟩
      obtain ⟨d', db', table', rows', hon', ⟨ts', hts', hrows', -⟩, hne⟩ := hch
      obtain ⟨rfl, -, rfl⟩ := hon.unique hon'
      simp only [revertTarget, hmode, hts, Result.ok.injEq, Option.some.injEq] at hts'
      rw [← hts', hrows] at hrows'
      exact hne hrows'
    · exact hno _ _ ⟨happ, rfl⟩
  · refine hnot ?_
    show SameStore s (withTable s session stmt.tableName (executeRevert env stmt)).1
    rw [hsame]
    exact ⟨rfl, rfl⟩

end CustomDbms.Execution
