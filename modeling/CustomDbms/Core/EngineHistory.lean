/-
  CustomDbms.Core.EngineHistory
  ─────────────────────────────
  **HISTORY AGREEMENT ALONG RUNS.**

  In a run in which no statement logs row events and then fails, every table of
  every state, committed or working, is what its records lead to, and
  `REVERT … LATEST` changes nothing (`history_agrees`).  The exception is real:
  an `UPDATE` that fails on its second row has logged its first
  (`failed_update_is_logged`).
-/
import CustomDbms.Core.EngineInvariant
import CustomDbms.Execution.HistoryAgreement

namespace CustomDbms.Core

open CustomDbms.Common CustomDbms.Catalog CustomDbms.Execution CustomDbms.Index CustomDbms.Lib
open CustomDbms.Parser CustomDbms.Planner CustomDbms.Storage CustomDbms.Versioning

/-- A call whose statement logs row events and then fails. -/
def CallLogsAndFails (env : Env) (e : DbmsEngine) (session : SessionContext) (sql : Str) : Prop :=
  ∃ statement, parse sql = .ok statement ∧
    LogsAndFails env (e.storeFor session) session statement

/-- The engines of runs without such a call. -/
inductive ReachableCleanly : DbmsEngine → Prop where
  | start {env : Env} {now : Nat} {e : DbmsEngine}
      (h : DbmsEngine.new env now Directory.empty = some e) : ReachableCleanly e
  | call {e : DbmsEngine} (h : ReachableCleanly e) (env : Env) (io : Io)
      (session : SessionContext) (sql : Str) (hno : ¬ CallLogsAndFails env e session sql) :
      ReachableCleanly (executeSql env io e session sql).1

theorem ReachableCleanly.reachable {e : DbmsEngine} (h : ReachableCleanly e) : Reachable e := by
  induction h with
  | start h => exact .start h
  | call _ env io session sql _ ih => exact ih.call env io session sql

theorem runStatement_agrees (env : Env) {s : Store} (hok : StoreOk s) (h : Agrees s)
    (session : SessionContext) {statement : Statement}
    (hno : ¬ LogsAndFails env s session statement) :
    Agrees (runStatement env s session statement).1 := by
  unfold runStatement
  split
  · exact h
  · exact h
  · rename_i plan hplan
    rw [buildPlan_statement hplan]
    exact execute_agrees env hok h session plan.detail hno

/-- A call that succeeds is none of these. -/
theorem not_callLogsAndFails_of_ok {env : Env} {io : Io} {e : DbmsEngine} (h : EngineOk e)
    {session : SessionContext} {sql : Str}
    (hok : (executeSql env io e session sql).2.2.isOk = true) :
    ¬ CallLogsAndFails env e session sql := by
  rintro ⟨statement, hparse, hlog⟩
  -- the statement has been executed and has succeeded
  have hrun : ∃ q, (runStatement env (e.storeFor session) session statement).2.2 = .ok q := by
    unfold executeSql executeSqlImpl at hok
    rw [hparse] at hok
    unfold DbmsEngine.storeFor at hlog ⊢
    cases statement with
    | update | delete | revert =>
        simp only at hok
        split at hok
        · rename_i tx htx
          simp only [htx, executeInTransaction, isDdlStatement, reduceCtorEq, or_self,
            if_false, Bool.false_eq_true] at hok ⊢
          cases hres : (runStatement env tx.store session _).2.2 with
          | ok q => exact ⟨q, rfl⟩
          | error err => simp [hres, Result.isOk] at hok
          | fault => simp [hres, Result.isOk] at hok
        · rename_i htx
          simp only [htx, executeAutocommit] at hok ⊢
          cases hres : (runStatement env e.store session _).2.2 with
          | ok q => exact ⟨q, rfl⟩
          | error err => simp [hres, Result.isOk] at hok
          | fault => simp [hres, Result.isOk] at hok
    | _ => cases hlog
  obtain ⟨q, hq⟩ := hrun
  unfold runStatement at hq
  split at hq
  · cases hq
  · cases hq
  · rename_i plan hplan
    rw [buildPlan_statement hplan] at hq
    exact not_logsAndFails_of_ok (h.storeFor session) hq hlog

/-- All texts of a sequence succeed. -/
def allOk (env : Env) (io : Io) : DbmsEngine → SessionContext → List Str → Bool
  | _, _, [] => true
  | e, session, sql :: rest =>
      let r := executeSql env io e session sql
      r.2.2.isOk && allOk env io r.1 r.2.1 rest

theorem reachableCleanly_runTexts (env : Env) (io : Io) {e : DbmsEngine} (h : ReachableCleanly e)
    (session : SessionContext) (texts : List Str) (hok : allOk env io e session texts = true) :
    ReachableCleanly (runTexts env io e session texts).1 := by
  induction texts generalizing e session with
  | nil => exact h
  | cons sql rest ih =>
      simp only [allOk, Bool.and_eq_true] at hok
      exact ih (h.call env io session sql
        (not_callLogsAndFails_of_ok (reachable_ok h.reachable) hok.1)) _ hok.2

/-- **Log and heaps agree along every run without such a call.** -/
theorem reachableCleanly_agrees {e : DbmsEngine} (h : ReachableCleanly e) :
    AllStores Agrees e := by
  have hempty : Agrees Store.empty := by
    intro d db t table hdb
    cases hdb
  induction h with
  | start h =>
      rw [new_empty] at h
      cases h
      refine ⟨hempty, ?_⟩
      intro key tx htx
      cases htx
  | @call e h env io session sql hno ih =>
      have hok := reachable_ok h.reachable
      refine ih.executeSqlImpl hempty ?_ ?_
      · -- a clone has the rows it was cloned from
        intro state hstate
        obtain ⟨state', hclone, -, hview⟩ := cloneRuntimeState_ok hok.committed.state
        rw [show cloneRuntimeState e.runtimeState = .ok state' from hclone] at hstate
        cases hstate
        exact agrees_of_view ih.committed hview rfl
      · intro statement hparse
        exact runStatement_agrees env (hok.storeFor session) (ih.storeFor session) session
          fun hlog => hno ⟨statement, hparse, hlog⟩

/-- **History agreement.**  For every table, the state at the latest timestamp
of its history is its heap; and `REVERT … LATEST` changes nothing. -/
theorem history_agrees {e : DbmsEngine} (h : ReachableCleanly e) {s : Store} (hs : StoreOf e s) :
    (∀ d db t table, s.runtime.databases.find? d = some db → db.tables.find? t = some table →
      ∃ ts, s.versions.latestTimestampForTable d t = some ts ∧
        reconstructTableStateAt s.versions d t ts = table.heap.rows) ∧
    ∀ env session stmt detail, stmt.mode = .latest →
      SameStore s (execute env s session (.revert stmt) detail).1 := by
  have hok := (reachable_ok h.reachable).of hs
  have hag := (reachableCleanly_agrees h).of hs
  constructor
  · intro d db t table hdb ht
    exact (hag d db t table hdb ht).reconstruct hok.history
      ((hok.state d db hdb).tables t table ht).heap.ordered
  · intro env session stmt detail hmode
    exact revert_latest_same env hok hag session hmode detail

/-- The state at the latest timestamp of a table. -/
def latestRows (s : Store) (d t : Str) : Option (List RowData) :=
  (s.versions.latestTimestampForTable d t).map (reconstructTableStateAt s.versions d t)

/-- Statements that change and remove rows of the sample table. -/
def changedRun : DbmsEngine × SessionContext :=
  runTexts sampleEnv Io.good freshEngine ⟨str "a", []⟩
    [str "CREATE DATABASE d;", str "USE d;", str "CREATE TABLE t (k INT INDEXED, v STRING);",
      str "INSERT INTO t (k, v) VALUES (1, \"x\"), (2, \"y\");",
      str "UPDATE t SET v = \"z\" WHERE k == 1;", str "DELETE FROM t WHERE k == 2;"]

set_option maxRecDepth 4000 in
theorem history_agrees_changedRun :
    storeRows changedRun.1.store (str "d") (str "t")
        = some [⟨some 0, [.int 1, .string (str "z")]⟩] ∧
      ∃ ts, changedRun.1.store.versions.latestTimestampForTable (str "d") (str "t") = some ts ∧
        some (reconstructTableStateAt changedRun.1.store.versions (str "d") (str "t") ts)
          = storeRows changedRun.1.store (str "d") (str "t") := by
  have hrows : storeRows changedRun.1.store (str "d") (str "t")
      = some [⟨some 0, [.int 1, .string (str "z")]⟩] := by decide +kernel
  have hclean : ReachableCleanly changedRun.1 :=
    reachableCleanly_runTexts sampleEnv Io.good (.start (new_empty sampleEnv 0)) _ _
      (by decide +kernel)
  refine ⟨hrows, ?_⟩
  obtain ⟨db, hdb, ht⟩ := Option.bind_eq_some_iff.mp hrows
  obtain ⟨table, htable, heq⟩ := Option.map_eq_some_iff.mp ht
  obtain ⟨ts, hts, hrec⟩ := (history_agrees hclean .committed).1 _ db _ table hdb htable
  exact ⟨ts, hts, by rw [hrec, hrows, heq]⟩

set_option maxRecDepth 4000 in
/-- An `UPDATE` that fails when the indexes are rebuilt has logged its rows. -/
theorem failed_update_is_logged :
    ¬ ∀ e s, Reachable e → StoreOf e s → ∀ d db t table,
      s.runtime.databases.find? d = some db → db.tables.find? t = some table →
      ∃ ts, s.versions.latestTimestampForTable d t = some ts ∧
        reconstructTableStateAt s.versions d t ts = table.heap.rows := by
  intro hclaim
  let e := (executeSql sampleEnv Io.good sampleRun.1 sampleRun.2 (str "UPDATE t SET k = 7;")).1
  have he : Reachable e := reachable_sampleRun.call sampleEnv Io.good sampleRun.2 _
  have hrows : storeRows e.store (str "d") (str "t")
      = some [⟨some 0, [.int 1, .string (str "x")]⟩, ⟨some 1, [.int 2, .string (str "y")]⟩] := by
    decide +kernel
  have hlatest : latestRows e.store (str "d") (str "t")
      = some [⟨some 0, [.int 7, .string (str "x")]⟩, ⟨some 1, [.int 7, .string (str "y")]⟩] := by
    decide +kernel
  obtain ⟨db, hdb, ht⟩ := Option.bind_eq_some_iff.mp hrows
  obtain ⟨table, htable, heq⟩ := Option.map_eq_some_iff.mp ht
  obtain ⟨ts, hts, hrec⟩ := hclaim e e.store he .committed _ db _ table hdb htable
  rw [latestRows, hts, Option.map_some, hrec, heq] at hlatest
  revert hlatest
  decide +kernel

end CustomDbms.Core
