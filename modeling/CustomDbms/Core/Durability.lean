/-
  CustomDbms.Core.Durability
  ──────────────────────────
  **WHAT A RESTART FINDS** (`ExecuteSql`, `Save`, `Reset` and the constructor).

  A call writes the files where it commits: a COMMIT, and a statement outside
  transactions that succeeds and changes data.  All other calls leave them
  alone.  So at every moment of a run the directory holds the committed state
  as the last such call left it, whatever was begun, rolled back, refused or
  half executed since, and a process that stops between two calls is opened
  again on exactly this state.  A file operation that fails leaves nothing to
  rely on until the next call that commits.

    • `executeSql_files` — one call and the files;
    • `savedRun_ok` — along a run the files hold what was saved last;
    • `restart_restores_iff` — which states a restart brings back.
-/
import CustomDbms.Core.RowIds

namespace CustomDbms.Core

open CustomDbms.Common CustomDbms.Catalog CustomDbms.Execution CustomDbms.Lib CustomDbms.Parser
open CustomDbms.Planner CustomDbms.Storage CustomDbms.Versioning

/-! ## §1. The files. -/

/-- **The directory holds the store**: its two files and a log without entries,
or the log alone as long as nothing has been saved. -/
structure DiskHolds (d : Directory) (s : Store) : Prop where
  log : d .wal = some walHeader
  files : (d .state = some (stateText s.runtime) ∧ d .history = some (historyText s.versions)) ∨
    (d .state = none ∧ s = Store.empty)

/-- `Save` and `Reset` put the store on the disk. -/
theorem diskHolds_saved (s : Store) (d : Directory) :
    DiskHolds (reset (save s.runtime s.versions d)) s := ⟨rfl, .inl ⟨rfl, rfl⟩⟩

theorem diskHolds_reset {d : Directory} {s : Store} (h : DiskHolds d s) : DiskHolds (reset d) s :=
  ⟨rfl, h.files⟩

/-- A log without entries is replayed without an effect. -/
theorem replayWal_diskHolds {d : Directory} {s : Store} (h : DiskHolds d s) (env : Env)
    {e : DbmsEngine} (hdisk : e.disk = d) :
    replayWal env e = ({ e with disk := reset e.disk }, .accepted) := by
  have hlog : loadAll e.disk = some [] := by
    rw [hdisk, loadAll, h.log]
    rfl
  rw [replayWal, hlog]
  rfl

/-- What the constructor makes of such a directory is what `Load` reads. -/
theorem new_diskHolds {d : Directory} {s : Store} (h : DiskHolds d s) (env : Env) (now : Nat) :
    DbmsEngine.new env now d
      = if (load d RuntimeState.empty VersionStore.empty).status = .thrown then none
        else some ((DbmsEngine.loaded d).withDisk (reset d)) := by
  rw [DbmsEngine.new, replayWal_diskHolds h env rfl]
  rfl

/-! ## §2. One call. -/

/-- Statements outside transactions that are saved. -/
def savesOutside : Statement → Bool
  | .beginTransaction | .commitTransaction | .rollbackTransaction => false
  | statement => isMutatingStatement statement

/-- **The call goes on to log and save**: the COMMIT of an open transaction, or
a statement outside transactions that changes data and has succeeded. -/
def commits (env : Env) (e : DbmsEngine) (session : SessionContext) (sql : Str) : Bool :=
  match parse sql with
  | .ok statement =>
      match e.transactions.find? (transactionKey session) with
      | some _ => decide (statement = .commitTransaction)
      | none => savesOutside statement && (runStatement env e.store session statement).2.2.isOk
  | _ => false

section Call

variable {env : Env} {io : Io} {e : DbmsEngine} {session : SessionContext} {sql : Str}

/-- `Save` and `Reset`, where they answer as they should. -/
theorem checkpoint_files {result : QueryResult}
    (h : (e.checkpoint io true result).2.isOk = true) :
    DiskHolds (e.checkpoint io true result).1.disk (e.checkpoint io true result).1.store := by
  obtain ⟨append, saved, emptied⟩ := io
  cases saved with
  | failed d => cases h
  | thrown d => cases h
  | done =>
      cases emptied with
      | failed d => cases h
      | thrown d => cases h
      | done => exact diskHolds_saved e.store e.disk

theorem logStatement_files {result : QueryResult}
    (h : (logStatement e io sql true result).2.isOk = true) :
    DiskHolds (logStatement e io sql true result).1.disk
      (logStatement e io sql true result).1.store := by
  rw [logStatement, if_pos rfl] at h ⊢
  rcases io_cases e io.append (appendSql sql) (str "failed to append WAL SQL")
    (fun e => e.checkpoint io true result) with ⟨-, hrun⟩ | ⟨d, -, hrun⟩ | ⟨d, -, hrun⟩
  · rw [hrun] at h ⊢
    exact checkpoint_files h
  · rw [hrun] at h
    cases h
  · rw [hrun] at h
    cases h

theorem commitTransaction_files {key : Str} {tx : TransactionContext}
    (h : (commitTransaction e io true key tx).2.isOk = true) :
    DiskHolds (commitTransaction e io true key tx).1.disk
      (commitTransaction e io true key tx).1.store := by
  unfold commitTransaction at h ⊢
  split at h
  · rename_i hlogged
    rw [if_pos hlogged]
    rcases io_cases (e.publish key tx) io.append (appendTransaction tx.walStatements)
      (str "failed to append WAL TX") (finishCommit io true key) with
      ⟨-, hrun⟩ | ⟨d, -, hrun⟩ | ⟨d, -, hrun⟩
    · rw [hrun] at h ⊢
      exact checkpoint_files h
    · rw [hrun] at h
      cases h
    · rw [hrun] at h
      cases h
  · rename_i hnone
    rw [if_neg hnone]
    exact checkpoint_files h

/-- A statement outside transactions saves, or leaves the files alone. -/
theorem executeAutocommit_files {statement : Statement}
    (hb : statement ≠ .beginTransaction) (hc : statement ≠ .commitTransaction)
    (hr : statement ≠ .rollbackTransaction) :
    let r := executeAutocommit env io e session sql statement true
    if savesOutside statement && (runStatement env e.store session statement).2.2.isOk then
      r.2.2.isOk = true → DiskHolds r.1.disk r.1.store
    else r.1.disk = e.disk := by
  have hmutating : savesOutside statement = isMutatingStatement statement := by
    cases statement with
    | beginTransaction => exact absurd rfl hb
    | commitTransaction => exact absurd rfl hc
    | rollbackTransaction => exact absurd rfl hr
    | _ => rfl
  intro r
  rw [hmutating]
  have hr : r = executeAutocommit env io e session sql statement true := rfl
  clear_value r
  unfold executeAutocommit at hr
  generalize runStatement env e.store session statement = run at hr
  obtain ⟨s, session', answer⟩ := run
  cases answer with
  | error err =>
      subst hr
      simp [Result.isOk, DbmsEngine.withStore]
  | fault =>
      subst hr
      simp [Result.isOk, DbmsEngine.withStore]
  | ok result =>
      simp only at hr
      cases hmut : isMutatingStatement statement with
      | false =>
          rw [hmut] at hr
          subst hr
          rfl
      | true =>
          rw [hmut, if_pos rfl] at hr
          subst hr
          exact fun h => logStatement_files h

/-- **One call and the files**: where it commits and says so, they hold the
committed state it leaves; where it does not commit, they are as before. -/
theorem executeSql_files (env : Env) (io : Io) (e : DbmsEngine) (session : SessionContext)
    (sql : Str) :
    if commits env e session sql then
      (executeSql env io e session sql).2.2.isOk = true →
        DiskHolds (executeSql env io e session sql).1.disk (executeSql env io e session sql).1.store
    else (executeSql env io e session sql).1.disk = e.disk := by
  unfold commits
  cases hparse : parse sql with
  | error err => simp [executeSql, executeSqlImpl, hparse]
  | fault => simp [executeSql, executeSqlImpl, hparse]
  | ok statement =>
      simp only
      by_cases hb : statement = .beginTransaction
      · subst hb
        have hdisk : (executeSql env io e session sql).1.disk = e.disk := by
          simp only [executeSql, executeSqlImpl, hparse, executeBegin]
          split
          · rfl
          · split <;> rfl
        cases e.transactions.find? (transactionKey session) <;> simpa [savesOutside] using hdisk
      by_cases hr : statement = .rollbackTransaction
      · subst hr
        have hdisk : (executeSql env io e session sql).1.disk = e.disk := by
          simp only [executeSql, executeSqlImpl, hparse, executeRollback]
          split <;> rfl
        cases e.transactions.find? (transactionKey session) <;> simpa [savesOutside] using hdisk
      by_cases hc : statement = .commitTransaction
      · subst hc
        cases htx : e.transactions.find? (transactionKey session) with
        | none => simp [executeSql, executeSqlImpl, hparse, executeCommit, htx, savesOutside]
        | some tx =>
            simp only [executeSql, executeSqlImpl, hparse, executeCommit, htx, decide_true, if_true]
            exact commitTransaction_files
      · rw [executeSql, executeSqlImpl_statement hparse hb hc hr]
        cases htx : e.transactions.find? (transactionKey session) with
        | none => exact executeAutocommit_files hb hc hr
        | some tx =>
            simp only [hc, decide_false, if_false, Bool.false_eq_true]
            unfold executeInTransaction
            split
            · rfl
            · split <;> rfl

end Call

/-! ## §3. Runs. -/

/-- The committed state that was saved last, after a call; `none` after a call
whose file operations failed. -/
def savedAfter (env : Env) (io : Io) (e : DbmsEngine) (session : SessionContext) (sql : Str)
    (saved : Option Store) : Option Store :=
  if commits env e session sql then
    if (executeSql env io e session sql).2.2.isOk then
      some (executeSql env io e session sql).1.store
    else none
  else saved

/-- **Runs over several processes**: calls of any sessions with any file
operations that fail, and stops between two calls with a new start on the same
directory; with the committed state that was saved last. -/
inductive SavedRun : DbmsEngine → Option Store → Prop where
  | start {env : Env} {now : Nat} {e : DbmsEngine}
      (h : DbmsEngine.new env now Directory.empty = some e) : SavedRun e (some Store.empty)
  | call {e : DbmsEngine} {saved : Option Store} (h : SavedRun e saved) (env : Env) (io : Io)
      (session : SessionContext) (sql : Str) :
      SavedRun (executeSql env io e session sql).1 (savedAfter env io e session sql saved)
  | restart {e e' : DbmsEngine} {s : Store} (h : SavedRun e (some s)) (hs : Restorable s)
      {env : Env} {now : Nat} (hnew : DbmsEngine.new env now e.disk = some e') :
      SavedRun e' (some s)

/-- What a run keeps. -/
structure SavedOk (e : DbmsEngine) (saved : Option Store) : Prop where
  stores : AllStores (fun s => StoreOk s.bare) e
  saved : ∀ s ∈ saved, StoreOk s.bare ∧ DiskHolds e.disk s

theorem runStatement_bare_ok (env : Env) {s : Store} (h : StoreOk s.bare)
    (session : SessionContext) {statement : Statement}
    (hval : validateStatement statement = .ok ()) :
    StoreOk (runStatement env s session statement).1.bare := by
  rcases runStatement_store env s session statement with hsame | ⟨detail, hrun⟩
  · rw [hsame]
    exact h
  · rw [hrun]
    exact execute_bare_ok h session hval detail

/-- **The step lemma.** -/
theorem SavedOk.call {e : DbmsEngine} {saved : Option Store} (h : SavedOk e saved) (env : Env)
    (io : Io) (session : SessionContext) (sql : Str) :
    SavedOk (executeSql env io e session sql).1 (savedAfter env io e session sql saved) := by
  have hstores : AllStores (fun s => StoreOk s.bare) (executeSql env io e session sql).1 := by
    refine h.stores.executeSqlImpl (storeOk_bare storeOk_empty) ?_ ?_
    · intro state hclone
      obtain ⟨state', hclone', hok, -⟩ := cloneRuntimeState_ok h.stores.committed.state
      rw [show cloneRuntimeState e.runtimeState = .ok state' from hclone'] at hclone
      cases hclone
      exact ⟨hok, h.stores.committed.history⟩
    · intro statement hparse
      exact runStatement_bare_ok env (h.stores.storeFor session) session (parse_validated hparse)
  refine ⟨hstores, ?_⟩
  have hfiles := executeSql_files env io e session sql
  intro s hs
  unfold savedAfter at hs
  split at hs
  · rename_i hcommits
    rw [if_pos hcommits] at hfiles
    split at hs
    · rename_i hok
      cases hs
      exact ⟨hstores.committed, hfiles hok⟩
    · cases hs
  · rename_i hcommits
    rw [if_neg hcommits] at hfiles
    rw [hfiles]
    exact h.saved s hs

theorem restores_empty : Restores Store.empty Store.empty := ⟨rfl, rfl⟩

/-- A store in order that is on the disk and holds no newline is loaded. -/
theorem load_diskHolds {d : Directory} {s : Store} (hok : StateOk s.runtime) (hdisk : DiskHolds d s)
    (hs : Restorable s) :
    (load d RuntimeState.empty VersionStore.empty).status = .accepted ∧
      Restores s (DbmsEngine.loaded d).store ∧ StateOk (DbmsEngine.loaded d).store.runtime ∧
      bareVersions (DbmsEngine.loaded d).store.versions = bareVersions s.versions := by
  rcases hdisk.files with ⟨hstate, hhistory⟩ | ⟨hnone, rfl⟩
  · obtain ⟨s', hload, hok', hview⟩ := load_of_savable hok hs.1 hs.2 hstate hhistory
      RuntimeState.empty VersionStore.empty
    rw [store_loaded, hload]
    refine ⟨rfl, restores_of_view hok hok' hview rfl, hok', ?_⟩
    show VersionStore.mk ((s.versions.records.map plainRecord).map bareRecord) = _
    rw [List.map_map]
    rfl
  · have hload : load d RuntimeState.empty VersionStore.empty
        = ⟨RuntimeState.empty, VersionStore.empty, .accepted⟩ := by
      rw [load, hnone]
    rw [store_loaded, hload]
    exact ⟨rfl, restores_empty, stateOk_empty, rfl⟩

/-- **The run lemma**: the files hold what was saved last. -/
theorem savedRun_ok {e : DbmsEngine} {saved : Option Store} (h : SavedRun e saved) :
    SavedOk e saved := by
  induction h with
  | start h =>
      rw [new_empty] at h
      cases h
      refine ⟨⟨storeOk_bare storeOk_empty, ?_⟩, ?_⟩
      · intro key tx htx
        cases htx
      · rintro s ⟨⟩
        exact ⟨storeOk_bare storeOk_empty, rfl, .inr ⟨rfl, rfl⟩⟩
  | call _ env io session sql ih => exact ih.call env io session sql
  | @restart e e' s _ hs env now hnew ih =>
      obtain ⟨hok, hdisk⟩ := ih.saved s rfl
      have hruntime : StateOk s.runtime := hok.state
      obtain ⟨hstatus, -, hstate, hversions⟩ := load_diskHolds hruntime hdisk hs
      rw [new_diskHolds hdisk, hstatus, if_neg (by decide)] at hnew
      cases hnew
      refine ⟨⟨⟨hstate, ?_⟩, ?_⟩, ?_⟩
      · show HistoryOk (bareVersions (DbmsEngine.loaded e.disk).store.versions)
        rw [hversions]
        exact hok.history
      · intro key tx htx
        cases htx
      · rintro s' ⟨⟩
        exact ⟨hok, diskHolds_reset hdisk⟩

/-! ## §4. Restarts. -/

/-- **What a restart brings back.**  At every moment of a run over any number of
processes, a new process on the directory comes up with the state that was
saved last, without open transactions, exactly when no string of this state
holds a newline. -/
theorem restart_restores_iff {e : DbmsEngine} {s : Store} (h : SavedRun e (some s))
    (hfits : StoreIdsFit s) (env : Env) (now : Nat) :
    (∃ e', DbmsEngine.new env now e.disk = some e' ∧ e'.transactions = Dict.empty ∧
        (load e.disk RuntimeState.empty VersionStore.empty).status = .accepted ∧
        Restores s e'.store) ↔ StoreSavable s := by
  obtain ⟨hok, hdisk⟩ := (savedRun_ok h).saved s rfl
  rw [new_diskHolds hdisk]
  constructor
  · rintro ⟨e', hnew, -, haccepted, hrestores⟩
    rw [haccepted, if_neg (by decide)] at hnew
    cases hnew
    rcases hdisk.files with ⟨hstate, hhistory⟩ | ⟨-, rfl⟩
    · have hsavable := storeSavable_of_load hstate hhistory haccepted
      exact ⟨stateSavable_congr (view_eq_of_contents_eq hrestores.state) hsavable.state,
        historySavable_congr hrestores.history hsavable.history⟩
    · exact ⟨fun _ hp => (by cases hp), fun _ hr => (by cases hr)⟩
  · intro hsavable
    have hruntime : StateOk s.runtime := hok.state
    obtain ⟨hstatus, hrestores, -, -⟩ := load_diskHolds hruntime hdisk ⟨hfits, hsavable⟩
    refine ⟨(DbmsEngine.loaded e.disk).withDisk (reset e.disk), ?_, rfl, hstatus, hrestores⟩
    rw [hstatus, if_neg (by decide)]

theorem savedRun_of_reachable {e : DbmsEngine} (h : Reachable e) : ∃ saved, SavedRun e saved := by
  induction h with
  | start h => exact ⟨_, .start h⟩
  | call _ env io session sql ih =>
      obtain ⟨saved, hsaved⟩ := ih
      exact ⟨_, hsaved.call env io session sql⟩

/-- After a call that commits, the committed state is the saved one. -/
theorem savedRun_of_commits {env : Env} {io : Io} {e : DbmsEngine} {session : SessionContext}
    {sql : Str} (h : Reachable e) (hcommits : commits env e session sql = true)
    (hok : (executeSql env io e session sql).2.2.isOk = true) :
    SavedRun (executeSql env io e session sql).1
      (some (executeSql env io e session sql).1.store) := by
  obtain ⟨saved, hsaved⟩ := savedRun_of_reachable h
  have hrun := hsaved.call env io session sql
  rwa [savedAfter, if_pos hcommits, if_pos hok] at hrun

/-- A row of the sample run is deleted. -/
def deletedEngine : DbmsEngine :=
  (executeSql sampleEnv Io.good sampleRun.1 ⟨str "a", str "d"⟩
    (str "DELETE FROM t WHERE k == 1;")).1

theorem savedRun_deletedEngine : SavedRun deletedEngine (some deletedEngine.store) := by
  unfold deletedEngine
  exact savedRun_of_commits reachable_sampleRun (by decide +kernel) (by decide +kernel)

set_option maxRecDepth 4000 in
theorem restart_restores_deletedEngine :
    StoreIdsFit deletedEngine.store ∧
      ((∃ e', DbmsEngine.new sampleEnv 0 deletedEngine.disk = some e' ∧
          e'.transactions = Dict.empty ∧
          (load deletedEngine.disk RuntimeState.empty VersionStore.empty).status = .accepted ∧
          Restores deletedEngine.store e'.store) ↔ StoreSavable deletedEngine.store) := by
  have hfits : StoreIdsFit deletedEngine.store := by decide +kernel
  exact ⟨hfits, restart_restores_iff savedRun_deletedEngine hfits sampleEnv 0⟩

end CustomDbms.Core
