/-
  CustomDbms.Core.EngineInvariant
  ───────────────────────────────
  **RUNS OF THE ENGINE.**

  A run starts with the constructor on an empty data directory and goes on
  with calls of `ExecuteSql`: any sessions, any texts, any clock, any failing
  file operation.  In every state of a run the committed state and every
  working state satisfy the store invariant.

    • `reachable_ok` — the invariant along every run.
    • `heap_and_indexes_agree` — heaps and indexes hold the same rows, and
      `CHECK INDEX` succeeds.
-/
import CustomDbms.Core.DbmsEngine
import CustomDbms.Execution.StoreInvariant

namespace CustomDbms.Core

open CustomDbms.Common CustomDbms.Catalog CustomDbms.Execution CustomDbms.Index CustomDbms.Lib
open CustomDbms.Parser CustomDbms.Planner CustomDbms.Storage CustomDbms.Versioning

/-! ## §1. File operations do not touch memory. -/

/-- The engine with another directory. -/
def DbmsEngine.withDisk (e : DbmsEngine) (d : Directory) : DbmsEngine := { e with disk := d }

@[simp] theorem withDisk_store (e : DbmsEngine) (d : Directory) : (e.withDisk d).store = e.store := rfl
@[simp] theorem withDisk_transactions (e : DbmsEngine) (d : Directory) :
    (e.withDisk d).transactions = e.transactions := rfl
@[simp] theorem withDisk_withDisk (e : DbmsEngine) (d d' : Directory) :
    (e.withDisk d).withDisk d' = e.withDisk d' := rfl

/-- A file operation either succeeds and the call goes on, or ends the call. -/
theorem io_cases (e : DbmsEngine) (outcome : IoOutcome) (effect : Directory → Directory)
    (message : Str) (next : DbmsEngine → DbmsEngine × Result QueryResult) :
    (outcome = .done ∧
      e.io outcome effect message next = next (e.withDisk (effect e.disk))) ∨
    (∃ d, outcome = .failed d ∧
      e.io outcome effect message next = (e.withDisk d, .makeError .storageError message)) ∨
    (∃ d, outcome = .thrown d ∧ e.io outcome effect message next = (e.withDisk d, .fault)) := by
  cases outcome with
  | done => exact .inl ⟨rfl, rfl⟩
  | failed d => exact .inr (.inl ⟨d, rfl, rfl⟩)
  | thrown d => exact .inr (.inr ⟨d, rfl, rfl⟩)

/-- `Save` and `Reset` leave the memory of the engine alone. -/
theorem checkpoint_memory (e : DbmsEngine) (io : Io) (writeWal : Bool) (result : QueryResult) :
    ∃ d, (e.checkpoint io writeWal result).1 = e.withDisk d := by
  unfold DbmsEngine.checkpoint
  rcases io_cases e io.save (save e.runtimeState e.versionStore) (str "failed to persist state")
    (fun e => if writeWal then e.io io.reset reset (str "failed to checkpoint WAL")
      fun e => (e, .ok result) else (e, .ok result)) with ⟨-, h⟩ | ⟨d, -, h⟩ | ⟨d, -, h⟩
  · rw [h]
    split
    · rcases io_cases (e.withDisk (save e.runtimeState e.versionStore e.disk)) io.reset reset
        (str "failed to checkpoint WAL") (fun e => (e, .ok result)) with
        ⟨-, h⟩ | ⟨d, -, h⟩ | ⟨d, -, h⟩
      · exact ⟨_, congrArg Prod.fst h⟩
      · exact ⟨d, congrArg Prod.fst h⟩
      · exact ⟨d, congrArg Prod.fst h⟩
    · exact ⟨_, rfl⟩
  · exact ⟨d, congrArg Prod.fst h⟩
  · exact ⟨d, congrArg Prod.fst h⟩

/-- What `COMMIT` leaves in memory: the working state is committed, and the
transaction is over or, when logging failed, emptied. -/
theorem commitTransaction_memory (e : DbmsEngine) (io : Io) (writeWal : Bool) (key : Str)
    (tx : TransactionContext) :
    ∃ d, (commitTransaction e io writeWal key tx).1
        = ((e.publish key tx).endTransaction key).withDisk d ∨
      (commitTransaction e io writeWal key tx).1 = (e.publish key tx).withDisk d := by
  have hfinish : ∀ d, ∃ d', (finishCommit io writeWal key ((e.publish key tx).withDisk d)).1
      = ((e.publish key tx).endTransaction key).withDisk d' :=
    fun d => checkpoint_memory _ io writeWal _
  unfold commitTransaction
  split
  · rcases io_cases (e.publish key tx) io.append (appendTransaction tx.walStatements)
      (str "failed to append WAL TX") (finishCommit io writeWal key) with
      ⟨-, h⟩ | ⟨d, -, h⟩ | ⟨d, -, h⟩
    · obtain ⟨d', hd'⟩ := hfinish (appendTransaction tx.walStatements (e.publish key tx).disk)
      exact ⟨d', .inl (by rw [h]; exact hd')⟩
    · exact ⟨d, .inr (by rw [h])⟩
    · exact ⟨d, .inr (by rw [h])⟩
  · obtain ⟨d', hd'⟩ := hfinish (e.publish key tx).disk
    exact ⟨d', .inl hd'⟩

theorem logStatement_memory (e : DbmsEngine) (io : Io) (sql : Str) (writeWal : Bool)
    (result : QueryResult) : ∃ d, (logStatement e io sql writeWal result).1 = e.withDisk d := by
  unfold logStatement
  split
  · rcases io_cases e io.append (appendSql sql) (str "failed to append WAL SQL")
      (fun e => e.checkpoint io writeWal result) with ⟨-, h⟩ | ⟨d, -, h⟩ | ⟨d, -, h⟩
    · obtain ⟨d', hd'⟩ := checkpoint_memory (e.withDisk (appendSql sql e.disk)) io writeWal result
      exact ⟨d', by rw [h]; exact hd'⟩
    · exact ⟨d, by rw [h]⟩
    · exact ⟨d, by rw [h]⟩
  · exact checkpoint_memory e io writeWal result

/-- What a statement outside transactions leaves in memory. -/
theorem executeAutocommit_memory (env : Env) (io : Io) (e : DbmsEngine) (session : SessionContext)
    (sql : Str) (statement : Statement) (writeWal : Bool) :
    ∃ d, (executeAutocommit env io e session sql statement writeWal).1
      = (e.withStore (runStatement env e.store session statement).1).withDisk d := by
  unfold executeAutocommit
  generalize runStatement env e.store session statement = r
  obtain ⟨s, session', res⟩ := r
  cases res with
  | error err => exact ⟨e.disk, rfl⟩
  | fault => exact ⟨e.disk, rfl⟩
  | ok result =>
      simp only
      split
      · exact logStatement_memory (e.withStore s) io sql writeWal result
      · exact ⟨e.disk, rfl⟩

/-- Where a statement that is not about transactions goes. -/
theorem executeSqlImpl_statement {env : Env} {io : Io} {e : DbmsEngine} {session : SessionContext}
    {sql : Str} {writeWal : Bool} {statement : Statement} (hparse : parse sql = .ok statement)
    (hb : statement ≠ .beginTransaction) (hc : statement ≠ .commitTransaction)
    (hr : statement ≠ .rollbackTransaction) :
    executeSqlImpl env io e session sql writeWal
      = match e.transactions.find? (transactionKey session) with
        | some tx =>
            executeInTransaction env e session (transactionKey session) tx sql statement writeWal
        | none => executeAutocommit env io e session sql statement writeWal := by
  unfold executeSqlImpl
  rw [hparse]
  cases statement with
  | beginTransaction => exact absurd rfl hb
  | commitTransaction => exact absurd rfl hc
  | rollbackTransaction => exact absurd rfl hr
  | _ => rfl

/-! ## §2. Properties of all states of the engine. -/

/-- The committed state and every working state have a property. -/
structure AllStores (P : Store → Prop) (e : DbmsEngine) : Prop where
  committed : P e.store
  working : ∀ key tx, e.transactions.find? key = some tx → P tx.store

/-- The state a statement of a session works on. -/
def DbmsEngine.storeFor (e : DbmsEngine) (session : SessionContext) : Store :=
  match e.transactions.find? (transactionKey session) with
  | some tx => tx.store
  | none => e.store

/-- The state without anything, which a `COMMIT` leaves in its transaction. -/
def Store.empty : Store := ⟨RuntimeState.empty, VersionStore.empty⟩

namespace AllStores

variable {P : Store → Prop} {e : DbmsEngine}

theorem withDisk (h : AllStores P e) (d : Directory) : AllStores P (e.withDisk d) :=
  ⟨h.committed, h.working⟩

theorem storeFor (h : AllStores P e) (session : SessionContext) : P (e.storeFor session) := by
  unfold DbmsEngine.storeFor
  split
  · rename_i tx htx
    exact h.working _ tx htx
  · exact h.committed

theorem executeBegin (h : AllStores P e) (key : Str)
    (hclone : ∀ state, cloneRuntimeState e.runtimeState = .ok state → P ⟨state, e.versionStore⟩) :
    AllStores P (executeBegin e key).1 := by
  unfold Core.executeBegin
  split
  · exact h
  · rename_i hnot
    have hnone : e.transactions.find? key = none := by simpa [Dict.contains] using hnot
    split
    · rename_i state hstate
      refine ⟨h.committed, ?_⟩
      intro k tx htx
      rw [Dict.find?_emplace hnone] at htx
      split at htx
      · cases htx
        exact hclone state hstate
      · exact h.working k tx htx
    · exact h
    · exact h

theorem publish (h : AllStores P e) (hempty : P Store.empty) {key : Str} {tx : TransactionContext}
    (htx : e.transactions.find? key = some tx) : AllStores P (e.publish key tx) := by
  refine ⟨h.working key tx htx, ?_⟩
  intro k tx' htx'
  rw [DbmsEngine.publish, Dict.find?_modify] at htx'
  split at htx'
  · obtain ⟨tx0, -, rfl⟩ := Option.map_eq_some_iff.mp htx'
    exact hempty
  · exact h.working k tx' htx'

theorem endTransaction (h : AllStores P e) (key : Str) : AllStores P (e.endTransaction key) := by
  refine ⟨h.committed, ?_⟩
  intro k tx htx
  rw [DbmsEngine.endTransaction, Dict.find?_erase] at htx
  split at htx
  · cases htx
  · exact h.working k tx htx

theorem executeCommit (h : AllStores P e) (hempty : P Store.empty) (io : Io) (writeWal : Bool)
    (key : Str) : AllStores P (executeCommit e io writeWal key).1 := by
  unfold Core.executeCommit
  split
  · exact h
  · rename_i tx htx
    obtain ⟨d, heq | heq⟩ := commitTransaction_memory e io writeWal key tx
    · rw [heq]
      exact ((h.publish hempty htx).endTransaction key).withDisk d
    · rw [heq]
      exact (h.publish hempty htx).withDisk d

theorem executeRollback (h : AllStores P e) (key : Str) : AllStores P (executeRollback e key).1 := by
  unfold Core.executeRollback
  split
  · exact h.endTransaction key
  · exact h

/-- **The step rule.**  A property of the empty state that clones inherit and
the statement keeps is kept by the call. -/
theorem executeSqlImpl {env : Env} {io : Io} {session : SessionContext} {sql : Str}
    {writeWal : Bool} (h : AllStores P e) (hempty : P Store.empty)
    (hclone : ∀ state, cloneRuntimeState e.runtimeState = .ok state → P ⟨state, e.versionStore⟩)
    (hrun : ∀ statement, parse sql = .ok statement →
      P (runStatement env (e.storeFor session) session statement).1) :
    AllStores P (executeSqlImpl env io e session sql writeWal).1 := by
  unfold Core.executeSqlImpl
  split
  · exact h
  · exact h
  · rename_i statement hparse
    simp only
    split
    · exact h.executeBegin _ hclone
    · exact h.executeCommit hempty io writeWal _
    · exact h.executeRollback _
    · rename_i hb hc hr
      have hstep := hrun statement hparse
      unfold DbmsEngine.storeFor at hstep
      split
      · -- inside a transaction: its working state only
        rename_i tx htx
        simp only [htx] at hstep
        unfold executeInTransaction
        split
        · exact h
        · split
          · exact h
          · refine ⟨h.committed, ?_⟩
            intro k tx' htx'
            rw [Dict.find?_modify] at htx'
            split at htx'
            · obtain ⟨tx0, -, rfl⟩ := Option.map_eq_some_iff.mp htx'
              exact hstep
            · exact h.working k tx' htx'
      · -- outside: the committed state only
        rename_i htx
        simp only [htx] at hstep
        obtain ⟨d, heq⟩ := executeAutocommit_memory env io e session sql statement writeWal
        rw [heq]
        exact ⟨hstep, h.working⟩

end AllStores

/-- **The engine invariant**: committed and working states are in order. -/
abbrev EngineOk (e : DbmsEngine) : Prop := AllStores StoreOk e

theorem storeOk_empty : StoreOk Store.empty := ⟨stateOk_empty, historyOk_empty⟩

theorem runStatement_ok (env : Env) {s : Store} (h : StoreOk s) (session : SessionContext)
    {statement : Statement} (hval : validateStatement statement = .ok ()) :
    StoreOk (runStatement env s session statement).1 := by
  unfold runStatement
  split
  · exact h
  · exact h
  · rename_i plan hplan
    rw [buildPlan_statement hplan]
    exact execute_ok h session hval plan.detail

/-- **Every call keeps the invariant.** -/
theorem executeSqlImpl_ok {env : Env} {io : Io} {e : DbmsEngine} (h : EngineOk e)
    (session : SessionContext) (sql : Str) (writeWal : Bool) :
    EngineOk (executeSqlImpl env io e session sql writeWal).1 := by
  refine h.executeSqlImpl storeOk_empty ?_ ?_
  · intro state hstate
    obtain ⟨state', hclone, hok, -⟩ := cloneRuntimeState_ok h.committed.state
    rw [show cloneRuntimeState e.runtimeState = .ok state' from hclone] at hstate
    cases hstate
    exact ⟨hok, h.committed.history⟩
  · intro statement hparse
    exact runStatement_ok env (h.storeFor session) session (parse_validated hparse)

/-! ## §3. Runs. -/

/-- The engines of one process that was started on an empty directory. -/
inductive Reachable : DbmsEngine → Prop where
  | start {env : Env} {now : Nat} {e : DbmsEngine}
      (h : DbmsEngine.new env now Directory.empty = some e) : Reachable e
  | call {e : DbmsEngine} (h : Reachable e) (env : Env) (io : Io) (session : SessionContext)
      (sql : Str) : Reachable (executeSql env io e session sql).1

/-- A fresh engine has no data and a log without entries. -/
theorem new_empty (env : Env) (now : Nat) :
    DbmsEngine.new env now Directory.empty
      = some ⟨RuntimeState.empty, VersionStore.empty, Dict.empty, reset Directory.empty⟩ := rfl

/-- **The invariant holds along every run.** -/
theorem reachable_ok {e : DbmsEngine} (h : Reachable e) : EngineOk e := by
  induction h with
  | start h =>
      rw [new_empty] at h
      cases h
      refine ⟨storeOk_empty, ?_⟩
      intro key tx htx
      cases htx
  | call _ env io session sql ih => exact executeSqlImpl_ok ih session sql true

/-- A sequence of texts sent by one session. -/
def runTexts (env : Env) (io : Io) : DbmsEngine → SessionContext → List Str →
    DbmsEngine × SessionContext
  | e, session, [] => (e, session)
  | e, session, sql :: rest =>
      let r := executeSql env io e session sql
      runTexts env io r.1 r.2.1 rest

theorem reachable_runTexts (env : Env) (io : Io) {e : DbmsEngine} (h : Reachable e)
    (session : SessionContext) (texts : List Str) :
    Reachable (runTexts env io e session texts).1 := by
  induction texts generalizing e session with
  | nil => exact h
  | cons sql rest ih => exact ih (h.call env io session sql) _

/-- A fresh engine. -/
def freshEngine : DbmsEngine :=
  ⟨RuntimeState.empty, VersionStore.empty, Dict.empty, reset Directory.empty⟩

/-- Regular expressions that match themselves only, and a clock that ticks
once for every record. -/
def sampleEnv : Env := ⟨fun pattern text => some (decide (pattern = text)),
  fun n => ⟨2024, 1, 1, 0, 0, 0, n⟩⟩

theorem reachable_freshEngine : Reachable freshEngine := .start (new_empty sampleEnv 0)

/-- A database with one table of two columns, of which the first is indexed. -/
def sampleRun : DbmsEngine × SessionContext :=
  runTexts sampleEnv Io.good freshEngine ⟨str "a", []⟩
    [str "CREATE DATABASE d;", str "USE d;", str "CREATE TABLE t (k INT INDEXED, v STRING);",
      str "INSERT INTO t (k, v) VALUES (1, \"x\"), (2, \"y\");"]

theorem reachable_sampleRun : Reachable sampleRun.1 :=
  reachable_runTexts sampleEnv Io.good reachable_freshEngine _ _

/-- A table of a store. -/
def storeTable (s : Store) (d t : Str) : Option TableRuntime :=
  (s.runtime.databases.find? d).bind fun db => db.tables.find? t

/-- The rows of a table. -/
def storeRows (s : Store) (d t : Str) : Option (List RowData) :=
  (s.runtime.databases.find? d).bind fun db => (db.tables.find? t).map fun table => table.heap.rows

/-- The states an engine holds: the committed one and that of every open
transaction. -/
inductive StoreOf (e : DbmsEngine) : Store → Prop where
  | committed : StoreOf e e.store
  | working {key : Str} {tx : TransactionContext}
      (h : e.transactions.find? key = some tx) : StoreOf e tx.store

theorem AllStores.of {P : Store → Prop} {e : DbmsEngine} (h : AllStores P e) {s : Store}
    (hs : StoreOf e s) : P s := by
  cases hs with
  | committed => exact h.committed
  | working htx => exact h.working _ _ htx

/-- **Heaps and indexes agree, always.**  In the committed and in every
working state of every run: row ids are pairwise distinct; the tree of an
INDEXED column holds the entry `key ↦ [row id]` of every row and nothing else,
with distinct keys of non-NULL values; and `CHECK INDEX` succeeds. -/
theorem heap_and_indexes_agree {e : DbmsEngine} (h : Reachable e) {s : Store}
    (hs : StoreOf e s) :
    (∀ d db t table, s.runtime.databases.find? d = some db → db.tables.find? t = some table →
      (table.heap.rows.map (·.rowId)).Nodup ∧
      ∀ i c, table.schema.columns[i]? = some c → c.constraint = .indexed →
        ∃ tree, table.indexes.find? c.name = some tree ∧
          (∀ r ∈ table.heap.rows, (rowKeyAt i c r).isSome) ∧
          (table.heap.rows.map (rowKeyAt i c)).Nodup ∧
          ∀ entry, entry ∈ tree.entries ↔
            ∃ r ∈ table.heap.rows, rowKeyAt i c r = some entry.key ∧ entry.rowIds = [r.rowId]) ∧
    validateRuntimeIndexConsistency s.runtime = .ok () := by
  have hok := (reachable_ok h).of hs
  refine ⟨?_, hok.state.validates⟩
  intro d db t table hdb htable
  have htab := (hok.state d db hdb).tables t table htable
  refine ⟨htab.heap.ordered.nodup, ?_⟩
  intro i c hc hidx
  have hcol : c.name ∈ indexedColumns table.schema := by
    rw [htab.schema.indexedColumns_eq]
    exact List.mem_map_of_mem (List.mem_filter.mpr ⟨List.mem_of_getElem? hc, by simpa using hidx⟩)
  have hkey : ∀ r, indexKey table.schema c.name r = rowKeyAt i c r := by
    intro r
    simp only [indexKey, htab.schema.findColumnIndex_eq hc, hc]
  obtain ⟨tree, htree, hix⟩ := htab.find_index hcol
  have hkeys : table.heap.rows.map (rowKeyAt i c)
      = table.heap.rows.map (indexKey table.schema c.name) :=
    List.map_congr_left fun r _ => (hkey r).symm
  refine ⟨tree, htree, fun r hr => hkey r ▸ hix.keyed r hr, hkeys ▸ hix.distinct, ?_⟩
  intro entry
  rw [hix.mem_entries]
  simp only [hkey]

set_option maxRecDepth 4000 in
/-- Two indexed rows, committed. -/
theorem heap_and_indexes_agree_sampleRun :
    (storeRows sampleRun.1.store (str "d") (str "t")).map List.length = some 2 ∧
      validateRuntimeIndexConsistency sampleRun.1.store.runtime = .ok () :=
  ⟨by decide +kernel, (heap_and_indexes_agree reachable_sampleRun .committed).2⟩

end CustomDbms.Core
