/-
  CustomDbms.Execution.TableRules
  ───────────────────────────────
  **PROPERTIES OF EVERY TABLE AND ITS RECORDS.**

  Several invariants say something of each table together with the records of
  the log that carry its name.  What a statement does to tables other than its
  own is the same argument for all of them: the table stays as it is, and the
  log grows by records of another name.  The rules here leave to an invariant
  only the table the statement is about.
-/
import CustomDbms.Execution.Effects

namespace CustomDbms.Execution

open CustomDbms.Common CustomDbms.Catalog CustomDbms.Core CustomDbms.Index CustomDbms.Lib
open CustomDbms.Parser CustomDbms.Storage CustomDbms.Versioning

/-- A property of the log, a table's name and the table. -/
abbrev TableProperty := VersionStore → (databaseName tableName : Str) → TableView → Prop

/-- Every table of the store has the property. -/
def EachTable (Q : TableProperty) (s : Store) : Prop :=
  ∀ d db t table, s.runtime.databases.find? d = some db → db.tables.find? t = some table →
    Q s.versions d t table.view

/-- Records of other tables do not matter. -/
def Local (env : Env) (Q : TableProperty) : Prop :=
  ∀ v kind d t schema before after d' t' w, ¬ (d = d' ∧ t = t') → Q v d' t' w →
    Q (appendChangeEvent env v kind d t schema before after) d' t' w

variable {env : Env} {Q : TableProperty} {s : Store}

theorem Local.logEvents (hQ : Local env Q) {v : VersionStore} {d t d' t' : Str} {w : TableView}
    (hne : ¬ (d = d' ∧ t = t')) (evs : List RowEvent) (h : Q v d' t' w) :
    Q (logEvents env d t v evs) d' t' w := by
  induction evs generalizing v with
  | nil => exact h
  | cons ev evs ih => exact ih (hQ _ _ _ _ _ _ _ _ _ _ hne h)

/-- A statement on one table logs row events of the table and leaves a table
with the property. -/
def Leaves (env : Env) (Q : TableProperty) (s : Store) (session : SessionContext)
    (name : QualifiedName)
    (f : Str → TableRuntime → VersionStore → TableRuntime × VersionStore × Result QueryResult) :
    Prop :=
  ∀ d db table, OnTable s session name d db table →
    ∃ evs, (f d table s.versions).2.1 = logEvents env d name.objectName s.versions evs ∧
      Q (logEvents env d name.objectName s.versions evs) d name.objectName
        (f d table s.versions).1.view

/-- **The rule for a statement on one table.** -/
theorem EachTable.withTable (hQ : Local env Q) (h : EachTable Q s) (session : SessionContext)
    (name : QualifiedName)
    {f : Str → TableRuntime → VersionStore → TableRuntime × VersionStore × Result QueryResult}
    (hf : Leaves env Q s session name f) : EachTable Q (withTable s session name f).1 := by
  rcases withTable_cases s session name with ⟨d, db, table, hon⟩ | ⟨-, hsame⟩
  · obtain ⟨evs, hv, hself⟩ := hf d db table hon
    rw [withTable_onTable hon]
    intro d' db' t' table' hdb' ht'
    simp only [Store.setTable, Dict.find?_modify] at hdb'
    simp only [hv]
    by_cases hd : d' = d
    · subst hd
      rw [if_pos rfl, hon.found] at hdb'
      cases hdb'
      simp only [Dict.find?_modify] at ht'
      by_cases ht : t' = name.objectName
      · subst ht
        rw [if_pos rfl, hon.table] at ht'
        cases ht'
        exact hself
      · rw [if_neg ht] at ht'
        exact hQ.logEvents (fun heq => ht heq.2.symm) evs (h d' db t' table' hon.found ht')
    · rw [if_neg hd] at hdb'
      exact hQ.logEvents (fun heq => hd heq.1.symm) evs (h d' db' t' table' hdb' ht')
  · rw [hsame]
    exact h

/-- The rule for a statement that adds or removes one table. -/
theorem EachTable.modify (hQ : Local env Q) (h : EachTable Q s) {d t : Str}
    {db : DatabaseRuntime} (hdb : s.runtime.databases.find? d = some db)
    {f : DatabaseRuntime → DatabaseRuntime} {kind : ChangeKind} {schema : Option TableSchema}
    (hother : ∀ t', t' ≠ t → (f db).tables.find? t' = db.tables.find? t')
    (hself : ∀ table', (f db).tables.find? t = some table' →
      Q (appendChangeEvent env s.versions kind d t schema none none) d t table'.view) :
    EachTable Q ⟨⟨s.runtime.databases.modify d f⟩,
      appendChangeEvent env s.versions kind d t schema none none⟩ := by
  intro d' db' t' table' hdb' ht'
  simp only [Dict.find?_modify] at hdb'
  by_cases hd : d' = d
  · subst hd
    rw [if_pos rfl, hdb] at hdb'
    cases hdb'
    by_cases ht : t' = t
    · subst ht
      exact hself table' ht'
    · rw [hother t' ht] at ht'
      exact hQ _ kind d' t schema none none _ _ _ (fun heq => ht heq.2.symm)
        (h d' db t' table' hdb ht')
  · rw [if_neg hd] at hdb'
    exact hQ _ kind d t schema none none _ _ _ (fun heq => hd heq.1.symm)
      (h d' db' t' table' hdb' ht')

/-- The property holds of a table as `CREATE TABLE` makes it. -/
def HoldsNew (env : Env) (Q : TableProperty) : Prop :=
  ∀ v d t schema, Q (appendChangeEvent env v .createTable d t (some schema) none none) d t
    (tableOf schema).view

/-- The property holds of a table that `CREATE TABLE` adds to the store. -/
def HoldsCreated (env : Env) (Q : TableProperty) (s : Store) : Prop :=
  ∀ d db t schema, s.runtime.databases.find? d = some db → db.tables.find? t = none →
    Q (appendChangeEvent env s.versions .createTable d t (some schema) none none) d t
      (tableOf schema).view

theorem HoldsNew.created (h : HoldsNew env Q) : HoldsCreated env Q s :=
  fun d _ t schema _ _ => h s.versions d t schema

theorem EachTable.createTable (hQ : Local env Q) (hnew : HoldsCreated env Q s)
    (h : EachTable Q s) (session : SessionContext) (stmt : CreateTableStatement) :
    EachTable Q (executeCreateTable env s session stmt).1 := by
  unfold executeCreateTable
  split
  · exact h
  · exact h
  · rename_i d _
    split
    · exact h
    · rename_i db hdb
      split
      · exact h
      · rename_i hnot
        have hnone : db.tables.find? stmt.tableName.objectName = none := by
          simpa [Dict.contains] using hnot
        refine h.modify hQ hdb ?_ ?_
        · intro t' ht
          simp only [schemaOf, Dict.find?_emplace hnone]
          exact if_neg ht
        · intro table' ht'
          simp only [schemaOf, Dict.find?_emplace hnone, if_true] at ht'
          cases ht'
          exact hnew d db _ (schemaOf d stmt) hdb hnone

theorem EachTable.dropTable (hQ : Local env Q) (h : EachTable Q s) (session : SessionContext)
    (name : QualifiedName) : EachTable Q (executeDropTable env s session name).1 := by
  unfold executeDropTable
  split
  · exact h
  · exact h
  · rename_i d _
    split
    · exact h
    · rename_i db hdb
      split
      · exact h
      · refine h.modify hQ hdb ?_ ?_
        · intro t' ht
          simp only [Dict.find?_erase]
          exact if_neg ht
        · intro table' ht'
          simp only [Dict.find?_erase, if_true] at ht'
          cases ht'

theorem EachTable.createDatabase (hQ : Local env Q) (h : EachTable Q s) (name : Str) :
    EachTable Q (executeCreateDatabase env s name).1 := by
  unfold executeCreateDatabase
  split
  · exact h
  · rename_i hnot
    have hnone : s.runtime.databases.find? name = none := by simpa [Dict.contains] using hnot
    intro d db t table hdb ht
    simp only [Dict.find?_emplace hnone] at hdb
    split at hdb
    · cases hdb
      cases ht
    · rename_i hd
      exact hQ _ .createDatabase name [] none none none _ _ _ (fun heq => hd heq.1.symm)
        (h d db t table hdb ht)

theorem EachTable.dropDatabase (hQ : Local env Q) (h : EachTable Q s) (session : SessionContext)
    (name : Str) : EachTable Q (executeDropDatabase env s session name).1 := by
  unfold executeDropDatabase
  split
  · intro d db t table hdb ht
    simp only [Dict.find?_erase] at hdb
    split at hdb
    · cases hdb
    · rename_i hd
      exact hQ _ .dropDatabase name [] none none none _ _ _ (fun heq => hd heq.1.symm)
        (h d db t table hdb ht)
  · exact h

/-- A store with the same view and log has the property too: a clone, a state
whose indexes were rebuilt. -/
theorem EachTable.of_view (h : EachTable Q s) {s' : Store}
    (hview : s'.runtime.view = s.runtime.view) (hv : s'.versions = s.versions) :
    EachTable Q s' := by
  intro d db' t table' hdb' ht'
  have htab := viewTable_view hdb' ht'
  rw [hview] at htab
  obtain ⟨⟨n, ts⟩, hd, hts⟩ := Option.bind_eq_some_iff.mp htab
  simp only [RuntimeState.view, Dict.find?_mapVals] at hd
  obtain ⟨db, hdb, heq⟩ := Option.map_eq_some_iff.mp hd
  cases heq
  simp only [Dict.find?_mapVals] at hts
  obtain ⟨table, ht, htv⟩ := Option.map_eq_some_iff.mp hts
  rw [hv, ← htv]
  exact h d db t table hdb ht

/-- **The rule for all statements**: what is left are the four that change the
rows of a table. -/
theorem EachTable.execute (hok : StateOk s.runtime) (hQ : Local env Q)
    (hnew : HoldsCreated env Q s) (h : EachTable Q s) (session : SessionContext)
    {statement : Statement} (detail : Str)
    (hinsert : ∀ stmt, statement = .insert stmt →
      Leaves env Q s session stmt.tableName (executeInsert env stmt))
    (hupdate : ∀ stmt, statement = .update stmt →
      Leaves env Q s session stmt.tableName (executeUpdate env stmt))
    (hdelete : ∀ stmt, statement = .delete stmt →
      Leaves env Q s session stmt.tableName (executeDelete env stmt))
    (hrevert : ∀ stmt, statement = .revert stmt →
      Leaves env Q s session stmt.tableName (executeRevert env stmt)) :
    EachTable Q (execute env s session statement detail).1 := by
  cases statement with
  | createDatabase name => exact h.createDatabase hQ name
  | dropDatabase name => exact h.dropDatabase hQ session name
  | createTable stmt => exact h.createTable hQ hnew session stmt
  | dropTable name => exact h.dropTable hQ session name
  | insert stmt => exact h.withTable hQ session _ (hinsert stmt rfl)
  | update stmt => exact h.withTable hQ session _ (hupdate stmt rfl)
  | delete stmt => exact h.withTable hQ session _ (hdelete stmt rfl)
  | revert stmt => exact h.withTable hQ session _ (hrevert stmt rfl)
  | select stmt =>
      refine h.withTable hQ session _ ?_
      intro d db table hon
      exact ⟨[], rfl, h d db _ table hon.found hon.table⟩
  | rebuildIndex =>
      obtain ⟨s', hrun, -, hview⟩ := rebuildRuntimeIndexes_ok hok
      simp only [Execution.execute, executeRebuildIndex, hrun]
      exact h.of_view hview rfl
  | checkIndex => exact h
  | useDatabase name => exact h
  | unknown raw => exact h
  | beginTransaction => exact h
  | commitTransaction => exact h
  | rollbackTransaction => exact h

end CustomDbms.Execution
