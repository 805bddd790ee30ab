/-
  CustomDbms.Execution.Congruence
  ───────────────────────────────
  **STATEMENTS DO NOT SEE THE SHAPE OF THE TREES.**

  Two stores with the same view and the same log, such as a state and its
  clone, may hold index trees of different shapes.  Under the invariant the
  trees answer alike, so a statement returns the same on both stores and
  leaves stores that are again the same (`execute_congr`).
-/
import CustomDbms.Execution.Effects

namespace CustomDbms.Execution

open CustomDbms.Common CustomDbms.Catalog CustomDbms.Core CustomDbms.Index CustomDbms.Lib
open CustomDbms.Parser CustomDbms.Storage CustomDbms.Versioning

/-! ## §1. Looking up in stores with the same view. -/

theorem SameStore.refl (s : Store) : SameStore s s := ⟨rfl, rfl⟩

theorem SameStore.trans {s s' s'' : Store} (h : SameStore s s') (h' : SameStore s' s'') :
    SameStore s s'' := ⟨h'.1.trans h.1, h'.2.trans h.2⟩

theorem SameStore.database {s s' : Store} (h : SameStore s s') (d : Str) :
    (s.runtime.databases.find? d = none ∧ s'.runtime.databases.find? d = none) ∨
      ∃ db db', s.runtime.databases.find? d = some db ∧
        s'.runtime.databases.find? d = some db' ∧ db'.view = db.view :=
  Dict.find?_cases_of_mapVals h.1 d

theorem tables_of_view {db db' : DatabaseRuntime} (h : db'.view = db.view) (t : Str) :
    (db.tables.find? t = none ∧ db'.tables.find? t = none) ∨
      ∃ table table', db.tables.find? t = some table ∧ db'.tables.find? t = some table' ∧
        table'.view = table.view :=
  Dict.find?_cases_of_mapVals (Prod.mk.inj h).2 t

/-- What a statement on one table must respect. -/
def RespectsView (name : QualifiedName)
    (f : Str → TableRuntime → VersionStore → TableRuntime × VersionStore × Result QueryResult) :
    Prop :=
  ∀ d table table' v, TableOk d name.objectName table → TableOk d name.objectName table' →
    table'.view = table.view →
    (f d table' v).1.view = (f d table v).1.view ∧ (f d table' v).2 = (f d table v).2

/-- The rule for a statement on one table. -/
theorem withTable_congr {s s' : Store} (h : StoreOk s) (h' : StoreOk s') (hs : SameStore s s')
    (session : SessionContext) (name : QualifiedName)
    {f : Str → TableRuntime → VersionStore → TableRuntime × VersionStore × Result QueryResult}
    (hf : RespectsView name f) :
    SameStore (withTable s session name f).1 (withTable s' session name f).1 ∧
      (withTable s' session name f).2 = (withTable s session name f).2 := by
  cases hd : resolveDatabaseName session name.databaseName with
  | error e => simpa [withTable, hd] using hs
  | fault => simpa [withTable, hd] using hs
  | ok d =>
      rcases hs.database d with ⟨hn, hn'⟩ | ⟨db, db', hdb, hdb', hview⟩
      · simpa [withTable, hd, hn, hn'] using hs
      · rcases tables_of_view hview name.objectName with ⟨hn, hn'⟩ | ⟨tb, tb', ht, ht', htv⟩
        · simpa [withTable, hd, hdb, hdb', hn, hn'] using hs
        · have hon : OnTable s session name d db tb := ⟨hd, hdb, ht⟩
          have hon' : OnTable s' session name d db' tb' := ⟨hd, hdb', ht'⟩
          obtain ⟨htab, hres⟩ := hf d tb tb' s.versions ((h.state d db hdb).tables _ _ ht)
            ((h'.state d db' hdb').tables _ _ ht') htv
          rw [withTable_onTable hon, withTable_onTable hon', hs.2]
          obtain ⟨hver, hout⟩ := Prod.ext_iff.mp hres
          refine ⟨⟨?_, hver⟩, hout⟩
          show (s'.setTable d _ _).runtime.view = (s.setTable d _ _).runtime.view
          rw [view_setTable, view_setTable, hs.1, htab]

/-! ## §2. Statements that rebuild the indexes. -/

theorem replaceRows_respects {table table' : TableRuntime} (h : table'.view = table.view)
    (v : VersionStore) (rows : List RowData) (message : Str) :
    (replaceRows table' v rows message).1.view = (replaceRows table v rows message).1.view ∧
      (replaceRows table' v rows message).2 = (replaceRows table v rows message).2 := by
  obtain ⟨hschema, hheap⟩ := TableView.mk.inj h
  unfold replaceRows
  rw [hschema]
  cases rebuildIndexes table.schema rows with
  | ok indexes => exact ⟨rfl, rfl⟩
  | error e => exact ⟨h, rfl⟩
  | fault => exact ⟨h, rfl⟩

theorem executeUpdate_respects (env : Env) (stmt : UpdateStatement) :
    RespectsView stmt.tableName (executeUpdate env stmt) := by
  intro d table table' v _ _ h
  obtain ⟨hschema, hheap⟩ := TableView.mk.inj h
  simp only [executeUpdate]
  rw [hschema, hheap]
  cases (updateRows env d table.schema stmt table.heap.scanAll v).2 with
  | ok p => exact replaceRows_respects h _ _ _
  | error e => exact ⟨h, rfl⟩
  | fault => exact ⟨h, rfl⟩

theorem executeDelete_respects (env : Env) (stmt : DeleteStatement) :
    RespectsView stmt.tableName (executeDelete env stmt) := by
  intro d table table' v _ _ h
  obtain ⟨hschema, hheap⟩ := TableView.mk.inj h
  simp only [executeDelete]
  rw [hschema, hheap]
  cases (deleteRows env d table.schema stmt table.heap.scanAll v).2 with
  | ok p => exact replaceRows_respects h _ _ _
  | error e => exact ⟨h, rfl⟩
  | fault => exact ⟨h, rfl⟩

theorem executeRevert_respects (env : Env) (stmt : RevertStatement) :
    RespectsView stmt.tableName (executeRevert env stmt) := by
  intro d table table' v _ _ h
  obtain ⟨hschema, hheap⟩ := TableView.mk.inj h
  unfold executeRevert
  rw [hschema, hheap]
  cases revertTarget stmt d v with
  | error e => exact ⟨h, rfl⟩
  | fault => exact ⟨h, rfl⟩
  | ok target =>
      cases target with
      | none => exact ⟨h, rfl⟩
      | some ts =>
          simp only
          split
          · exact ⟨h, rfl⟩
          · exact replaceRows_respects h _ _ _

/-! ## §3. `INSERT`. -/

/-- A loop over the entries of a map that only looks at what the keys stand
for. -/
theorem forEach_keys {β : Type} {m : Dict Str β} {f : Str × β → Result Unit}
    {g : Str → Result Unit} (h : ∀ p ∈ m.entries, f p = g p.1) :
    Result.forEach f m.entries = Result.forEach g m.keys := by
  unfold Dict.keys
  generalize m.entries = l at h
  induction l with
  | nil => rfl
  | cons p l ih =>
      rw [List.map_cons, Result.forEach_cons, Result.forEach_cons, h p (List.mem_cons_self ..),
        ih fun q hq => h q (List.mem_cons_of_mem _ hq)]

/-- Two trees over the same rows answer alike. -/
theorem IndexOk.find_eq {schema : TableSchema} {rows : List RowData} {n : Str}
    {tree tree' : IndexTree} (h : IndexOk schema rows n tree) (h' : IndexOk schema rows n tree')
    (k : Str) : tree'.find k = tree.find k := by
  rw [IndexOk.find h k, IndexOk.find h' k]

theorem freshIndexKey_congr {schema : TableSchema} {rows : List RowData} {n : Str}
    {tree tree' : IndexTree} (h : IndexOk schema rows n tree) (h' : IndexOk schema rows n tree')
    (i : Nat) (row : RowData) :
    freshIndexKey schema i row n tree' = freshIndexKey schema i row n tree := by
  unfold freshIndexKey
  simp only [IndexOk.find_eq h h']

/-- The trees of two tables with the same view, column by column. -/
theorem indexes_of_view {d t n : Str} {table table' : TableRuntime} (h : TableOk d t table)
    (h' : TableOk d t table') (hview : table'.view = table.view) :
    (table.indexes.find? n = none ∧ table'.indexes.find? n = none) ∨
      ∃ tree tree', table.indexes.find? n = some tree ∧ table'.indexes.find? n = some tree' ∧
        IndexOk table.schema table.heap.rows n tree ∧
        IndexOk table.schema table.heap.rows n tree' := by
  obtain ⟨hschema, hheap⟩ := TableView.mk.inj hview
  by_cases hn : n ∈ indexedColumns table.schema
  · obtain ⟨tree, htree, hix⟩ := h.find_index hn
    obtain ⟨tree', htree', hix'⟩ := h'.find_index (hschema ▸ hn)
    rw [hschema, hheap] at hix'
    exact .inr ⟨tree, tree', htree, htree', hix, hix'⟩
  · exact .inl ⟨Dict.find?_eq_none_iff.mpr (by rwa [h.keys]),
      Dict.find?_eq_none_iff.mpr (by rwa [h'.keys, hschema])⟩

/-- The check of one column by its name. -/
def checkUniqueAt (table : TableRuntime) (row : RowData) (n : Str) : Result Unit :=
  match findColumnIndex table.schema n, table.indexes.find? n with
  | some i, some tree => do
      let _ ← freshIndexKey table.schema i row n tree
      return ()
  | _, _ => .ok ()

theorem checkUnique_congr {d t : Str} {table table' : TableRuntime} (h : TableOk d t table)
    (h' : TableOk d t table') (hview : table'.view = table.view) (row : RowData) :
    checkUnique table' row = checkUnique table row := by
  obtain ⟨hschema, hheap⟩ := TableView.mk.inj hview
  -- both loops look up the keys in what stands for the column in the one table
  have hg : checkUnique table row
      = Result.forEach (checkUniqueAt table row) table.indexes.keys := by
    refine forEach_keys fun p hp => ?_
    have hfind := Dict.mem_entries_iff.mp (show (p.1, p.2) ∈ _ from hp)
    cases hi : findColumnIndex table.schema p.1 <;> simp [checkUniqueAt, hi, hfind]
  have hg' : checkUnique table' row
      = Result.forEach (checkUniqueAt table row) table'.indexes.keys := by
    refine forEach_keys fun p hp => ?_
    have hfind := Dict.mem_entries_iff.mp (show (p.1, p.2) ∈ _ from hp)
    rcases indexes_of_view (n := p.1) h h' hview with ⟨-, hn⟩ | ⟨tree, tree', ht, ht', hix, hix'⟩
    · rw [hn] at hfind
      cases hfind
    · obtain rfl : tree' = p.2 := by simpa using ht'.symm.trans hfind
      rw [hschema]
      cases hi : findColumnIndex table.schema p.1 <;>
        simp [checkUniqueAt, hi, ht, freshIndexKey_congr hix hix']
  rw [hg, hg', h.keys, h'.keys, hschema]

theorem admitRow_congr {d t : Str} {table table' : TableRuntime} (h : TableOk d t table)
    (h' : TableOk d t table') (hview : table'.view = table.view) (map : List Nat)
    (input : List Expression) : admitRow table' map input = admitRow table map input := by
  obtain ⟨hschema, hheap⟩ := TableView.mk.inj hview
  unfold admitRow
  rw [hschema]
  simp only [checkUnique_congr h h' hview]

theorem insertRows_congr (env : Env) {d t : Str} (map : List Nat)
    (inputs : List (List Expression)) {table table' : TableRuntime} (v : VersionStore)
    (h : TableOk d t table) (h' : TableOk d t table') (hview : table'.view = table.view) :
    (insertRows env d map inputs table' v).1.view = (insertRows env d map inputs table v).1.view ∧
      (insertRows env d map inputs table' v).2 = (insertRows env d map inputs table v).2 := by
  induction inputs generalizing table table' v with
  | nil => exact ⟨hview, rfl⟩
  | cons input inputs ih =>
      rw [insertRows, insertRows, admitRow_congr h h' hview]
      cases hrow : admitRow table map input with
      | error e => exact ⟨hview, rfl⟩
      | fault => exact ⟨hview, rfl⟩
      | ok row =>
          have hrow' := admitRow_congr h h' hview map input
          rw [hrow] at hrow'
          obtain ⟨hid, hlen, hnew⟩ := admitRow_ok h hrow
          obtain ⟨-, hlen', hnew'⟩ := admitRow_ok h' hrow'
          obtain ⟨table1, hrun, hok, hschema1, hrows1⟩ := storeRow_ok env v h hid hlen hnew
          obtain ⟨table1', hrun', hok', hschema1', hrows1'⟩ :=
            storeRow_ok env v h' hid hlen' hnew'
          obtain ⟨hschema, hheap⟩ := TableView.mk.inj hview
          simp only [hrun, hrun']
          rw [hschema, hheap]
          refine ih _ hok hok' ?_
          have hheap1 : table1'.heap = table1.heap := by
            rw [hok.heap.eq_replaceAll, hok'.heap.eq_replaceAll, hrows1, hrows1', hheap]
          rw [TableRuntime.view, TableRuntime.view, hschema1, hschema1', hschema, hheap1]

theorem executeInsert_respects (env : Env) (stmt : InsertStatement) :
    RespectsView stmt.tableName (executeInsert env stmt) := by
  intro d table table' v h h' hview
  have hschema : table'.schema = table.schema := congrArg TableView.schema hview
  unfold executeInsert
  rw [hschema]
  cases insertColumnMap table.schema stmt.columnNames with
  | error e => exact ⟨hview, rfl⟩
  | fault => exact ⟨hview, rfl⟩
  | ok map =>
      obtain ⟨htab, hres⟩ := insertRows_congr env map stmt.rows v h h' hview
      exact ⟨htab, by simp only [hres]⟩

/-! ## §4. `SELECT`. -/

theorem IndexOk.rangeScan_eq {schema : TableSchema} {rows : List RowData} {n : Str}
    {tree tree' : IndexTree} (h : IndexOk schema rows n tree) (h' : IndexOk schema rows n tree')
    (lower upper : Str) : tree'.rangeScan lower upper = tree.rangeScan lower upper := by
  rw [BStarPlusTree.rangeScan_spec (by rw [h.order]; decide) h.valid,
    BStarPlusTree.rangeScan_spec (by rw [h'.order]; decide) h'.valid, IndexOk.entries_eq h h']

theorem comparisonCandidates_congr {schema : TableSchema} {rows : List RowData} {n : Str}
    {tree tree' : IndexTree} (h : IndexOk schema rows n tree) (h' : IndexOk schema rows n tree')
    (op : ComparisonOperator) (encoded : Str) :
    comparisonCandidates tree' op encoded = comparisonCandidates tree op encoded := by
  cases op <;> simp only [comparisonCandidates, scanRowIds, IndexOk.find_eq h h',
    IndexOk.rangeScan_eq h h']

theorem indexCandidates_congr {d t : Str} {table table' : TableRuntime} (h : TableOk d t table)
    (h' : TableOk d t table') (hview : table'.view = table.view) (w : Option Expression) :
    indexCandidates table.schema table'.indexes w
      = indexCandidates table.schema table.indexes w := by
  unfold indexCandidates
  split
  · rename_i op db tb column v
    rcases indexes_of_view (n := column) h h' hview with ⟨hn, hn'⟩ | ⟨tree, tree', ht, ht', hx, hx'⟩
    · simp only [hn, hn']
    · cases findColumnIndex table.schema column with
      | none => rfl
      | some i => simp only [ht, ht', comparisonCandidates_congr hx hx']
  · rename_i db tb column lower upper
    rcases indexes_of_view (n := column) h h' hview with ⟨hn, hn'⟩ | ⟨tree, tree', ht, ht', hx, hx'⟩
    · simp only [hn, hn']
    · cases findColumnIndex table.schema column with
      | none => rfl
      | some i => simp only [ht, ht', scanRowIds, IndexOk.rangeScan_eq hx hx']
  · rfl

theorem executeSelect_respects (env : Env) (stmt : SelectStatement) :
    RespectsView stmt.tableName fun _ table v => (table, v, executeSelect env stmt table) := by
  intro d table table' v h h' hview
  obtain ⟨hschema, hheap⟩ := TableView.mk.inj hview
  refine ⟨hview, ?_⟩
  simp only [executeSelect, filterRows]
  rw [hschema, hheap, indexCandidates_congr h h' hview]

/-! ## §5. All statements. -/

theorem contains_congr {s s' : Store} (h : SameStore s s') (d : Str) :
    s'.runtime.databases.contains d = s.runtime.databases.contains d := by
  rcases h.database d with ⟨hn, hn'⟩ | ⟨db, db', hdb, hdb', -⟩
  · simp [Dict.contains, hn, hn']
  · simp [Dict.contains, hdb, hdb']

/-- One database rewritten alike in both stores, seen through the view. -/
theorem SameStore.modify {s s' : Store} (h : SameStore s s') (d : Str)
    {f : DatabaseRuntime → DatabaseRuntime}
    {g : Str × Dict Str TableView → Str × Dict Str TableView}
    (hf : ∀ db, (f db).view = g db.view) (v : VersionStore) :
    SameStore ⟨⟨s.runtime.databases.modify d f⟩, v⟩ ⟨⟨s'.runtime.databases.modify d f⟩, v⟩ := by
  have key : ∀ rt : RuntimeState,
      RuntimeState.view ⟨rt.databases.modify d f⟩ = rt.view.modify d g :=
    fun rt => Dict.mapVals_modify hf
  exact ⟨by rw [key, key, h.1], rfl⟩

theorem executeCreateDatabase_congr (env : Env) {s s' : Store} (h : SameStore s s') (name : Str) :
    SameStore (executeCreateDatabase env s name).1 (executeCreateDatabase env s' name).1 ∧
      (executeCreateDatabase env s' name).2 = (executeCreateDatabase env s name).2 := by
  unfold executeCreateDatabase
  rw [contains_congr h, h.2]
  split
  · exact ⟨h, rfl⟩
  · have key : ∀ rt : RuntimeState,
        RuntimeState.view ⟨rt.databases.emplace name ⟨name, Dict.empty⟩⟩
          = rt.view.emplace name (name, Dict.empty) := fun rt => Dict.mapVals_emplace
    exact ⟨⟨by rw [key, key, h.1], rfl⟩, rfl⟩

theorem executeDropDatabase_congr (env : Env) {s s' : Store} (h : SameStore s s')
    (session : SessionContext) (name : Str) :
    SameStore (executeDropDatabase env s session name).1
        (executeDropDatabase env s' session name).1 ∧
      (executeDropDatabase env s' session name).2 = (executeDropDatabase env s session name).2 := by
  unfold executeDropDatabase
  rw [contains_congr h, h.2]
  split
  · have key : ∀ rt : RuntimeState,
        RuntimeState.view ⟨rt.databases.erase name⟩ = rt.view.erase name :=
      fun rt => Dict.mapVals_erase
    exact ⟨⟨by rw [key, key, h.1], rfl⟩, rfl⟩
  · exact ⟨h, rfl⟩

theorem executeCreateTable_congr (env : Env) {s s' : Store} (h : SameStore s s')
    (session : SessionContext) (stmt : CreateTableStatement) :
    SameStore (executeCreateTable env s session stmt).1
        (executeCreateTable env s' session stmt).1 ∧
      (executeCreateTable env s' session stmt).2 = (executeCreateTable env s session stmt).2 := by
  unfold executeCreateTable
  cases resolveDatabaseName session stmt.tableName.databaseName with
  | error e => exact ⟨h, rfl⟩
  | fault => exact ⟨h, rfl⟩
  | ok d =>
      rcases h.database d with ⟨hn, hn'⟩ | ⟨db, db', hdb, hdb', hview⟩
      · simp only [hn, hn']
        exact ⟨h, trivial⟩
      · have hc : db'.tables.contains stmt.tableName.objectName
            = db.tables.contains stmt.tableName.objectName := by
          rcases tables_of_view hview stmt.tableName.objectName with ⟨hn, hn'⟩ | ⟨_, _, ht, ht', -⟩
          · simp [Dict.contains, hn, hn']
          · simp [Dict.contains, ht, ht']
        simp only [hdb, hdb', hc, h.2]
        split
        · exact ⟨h, rfl⟩
        · refine ⟨h.modify d (g := fun p => (p.1, p.2.emplace (schemaOf d stmt).tableName
            (tableOf (schemaOf d stmt)).view)) (fun db => ?_) _, rfl⟩
          show (db.name, _) = (db.name, _)
          rw [Dict.mapVals_emplace]
          rfl

theorem executeDropTable_congr (env : Env) {s s' : Store} (h : SameStore s s')
    (session : SessionContext) (name : QualifiedName) :
    SameStore (executeDropTable env s session name).1 (executeDropTable env s' session name).1 ∧
      (executeDropTable env s' session name).2 = (executeDropTable env s session name).2 := by
  unfold executeDropTable
  cases resolveDatabaseName session name.databaseName with
  | error e => exact ⟨h, rfl⟩
  | fault => exact ⟨h, rfl⟩
  | ok d =>
      rcases h.database d with ⟨hn, hn'⟩ | ⟨db, db', hdb, hdb', hview⟩
      · simp only [hn, hn']
        exact ⟨h, trivial⟩
      · rcases tables_of_view hview name.objectName with ⟨hn, hn'⟩ | ⟨tb, tb', ht, ht', htv⟩
        · simp only [hdb, hdb', hn, hn']
          exact ⟨h, trivial⟩
        · have hschema : tb'.schema = tb.schema := congrArg TableView.schema htv
          simp only [hdb, hdb', ht, ht', hschema, h.2]
          refine ⟨h.modify d (g := fun p => (p.1, p.2.erase name.objectName)) (fun db => ?_) _,
            trivial⟩
          show (db.name, _) = (db.name, _)
          rw [Dict.mapVals_erase]
          rfl

/-- **A statement answers alike on stores with the same view and log.** -/
theorem execute_congr (env : Env) {s s' : Store} (h : StoreOk s) (h' : StoreOk s')
    (hs : SameStore s s') (session : SessionContext) (statement : Statement) (detail : Str) :
    SameStore (execute env s session statement detail).1
        (execute env s' session statement detail).1 ∧
      (execute env s' session statement detail).2 = (execute env s session statement detail).2 := by
  cases statement with
  | createDatabase name =>
      obtain ⟨h1, h2⟩ := executeCreateDatabase_congr env hs name
      exact ⟨h1, by simp only [execute, h2]⟩
  | dropDatabase name => exact executeDropDatabase_congr env hs session name
  | createTable stmt =>
      obtain ⟨h1, h2⟩ := executeCreateTable_congr env hs session stmt
      exact ⟨h1, by simp only [execute, h2]⟩
  | dropTable name =>
      obtain ⟨h1, h2⟩ := executeDropTable_congr env hs session name
      exact ⟨h1, by simp only [execute, h2]⟩
  | useDatabase name =>
      refine ⟨hs, ?_⟩
      simp only [execute, executeUse, contains_congr hs]
  | insert stmt =>
      obtain ⟨h1, h2⟩ := withTable_congr h h' hs session _ (executeInsert_respects env stmt)
      exact ⟨h1, by simp only [execute, h2]⟩
  | update stmt =>
      obtain ⟨h1, h2⟩ := withTable_congr h h' hs session _ (executeUpdate_respects env stmt)
      exact ⟨h1, by simp only [execute, h2]⟩
  | delete stmt =>
      obtain ⟨h1, h2⟩ := withTable_congr h h' hs session _ (executeDelete_respects env stmt)
      exact ⟨h1, by simp only [execute, h2]⟩
  | select stmt =>
      obtain ⟨h1, h2⟩ := withTable_congr h h' hs session _ (executeSelect_respects env stmt)
      exact ⟨h1, by simp only [execute, h2]⟩
  | revert stmt =>
      obtain ⟨h1, h2⟩ := withTable_congr h h' hs session _ (executeRevert_respects env stmt)
      exact ⟨h1, by simp only [execute, h2]⟩
  | checkIndex =>
      refine ⟨hs, ?_⟩
      simp only [execute, executeCheckIndex, h.state.validates, h'.state.validates]
  | rebuildIndex =>
      obtain ⟨t, hrun, -, hview⟩ := rebuildRuntimeIndexes_ok h.state
      obtain ⟨t', hrun', -, hview'⟩ := rebuildRuntimeIndexes_ok h'.state
      simp only [execute, executeRebuildIndex, hrun, hrun']
      exact ⟨⟨by rw [hview, hview']; exact hs.1, hs.2⟩, trivial⟩
  | unknown raw => exact ⟨hs, rfl⟩
  | beginTransaction => exact ⟨hs, rfl⟩
  | commitTransaction => exact ⟨hs, rfl⟩
  | rollbackTransaction => exact ⟨hs, rfl⟩

end CustomDbms.Execution
