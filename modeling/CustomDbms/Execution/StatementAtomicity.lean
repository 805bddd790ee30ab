/-
  CustomDbms.Execution.StatementAtomicity
  ───────────────────────────────────────
  **WHICH FAILING STATEMENTS LEAVE THE TABLES ALONE.**

  `UPDATE`, `DELETE` and `REVERT` work on copies and replace heap and indexes
  at the very end; `INSERT` stores every row before it looks at the next one.
  So a statement that returns an error has changed nothing, unless it is an
  `INSERT` whose first row is admissible and a later one is not
  (`InsertStops`).
-/
import CustomDbms.Execution.StoreInvariant

namespace CustomDbms.Execution

open CustomDbms.Common CustomDbms.Catalog CustomDbms.Core CustomDbms.Index CustomDbms.Lib
open CustomDbms.Parser CustomDbms.Storage CustomDbms.Versioning

/-! ## §1. Rows that were built fit their columns. -/

theorem validateValues_fits {cs : List Catalog.ColumnDefinition} {vs vs' : List Value}
    (h : validateValues cs vs = .ok vs') {i : Nat} {c : Catalog.ColumnDefinition} {v : Value}
    (hc : cs[i]? = some c) (hv : vs'[i]? = some v) :
    canAssignToType v c.type (allowsNull c) = true := by
  induction cs generalizing vs vs' i with
  | nil => simp at hc
  | cons c' cs ih =>
      cases vs with
      | nil => cases h
      | cons w vs =>
          rw [validateValues] at h
          split at h
          · rename_i hfit
            obtain ⟨rest, hrest, heq⟩ := Result.bind_eq_ok.mp h
            cases heq
            cases i with
            | zero =>
                simp only [List.getElem?_cons_zero, Option.some.injEq] at hc hv
                rw [← hc, ← hv]
                exact hfit
            | succ i =>
                simp only [List.getElem?_cons_succ] at hc hv
                exact ih hrest hc hv
          · cases h

theorem validateValues_ne_fault {cs : List Catalog.ColumnDefinition} {vs : List Value}
    (h : vs.length = cs.length) : validateValues cs vs ≠ .fault := by
  induction cs generalizing vs with
  | nil => intro hf; cases hf
  | cons c cs ih =>
      cases vs with
      | nil => simp at h
      | cons v vs =>
          have hlen : vs.length = cs.length := by simpa using h
          have hrec := ih hlen
          rw [validateValues]
          split
          · cases hr : validateValues cs vs with
            | ok rest => simp
            | error e => simp
            | fault => exact absurd hr hrec
          · intro hf
            cases hf

theorem fillRow_ne_fault {map : List Nat} {es : List Expression} {vs : List Value}
    (hlen : es.length = map.length) (hmap : ∀ i ∈ map, i < vs.length) :
    fillRow map es vs ≠ .fault := by
  induction es generalizing map vs with
  | nil => simp [fillRow]
  | cons e es ih =>
      cases map with
      | nil => simp at hlen
      | cons i is =>
          cases e with
          | literal v =>
              simp only [fillRow, hmap i (by simp), if_true]
              refine ih (by simpa using hlen) ?_
              intro j hj
              rw [List.length_set]
              exact hmap j (by simp [hj])
          | _ => simp [fillRow, Result.makeError]

/-- `input_to_schema` has one column of the table for every name. -/
theorem insertColumnMap_ok {schema : TableSchema} {names : List Str} {map : List Nat}
    (h : insertColumnMap schema names = .ok map) :
    map.length = names.length ∧ ∀ i ∈ map, i < schema.columns.length := by
  induction names generalizing map with
  | nil => cases h; simp
  | cons n names ih =>
      rw [insertColumnMap, Result.mapList_cons] at h
      obtain ⟨i, hi, h⟩ := Result.bind_eq_ok.mp h
      obtain ⟨rest, hrest, h⟩ := Result.bind_eq_ok.mp h
      cases h
      obtain ⟨hlen, hlt⟩ := ih hrest
      refine ⟨by simp [hlen], ?_⟩
      intro j hj
      rcases List.mem_cons.mp hj with rfl | hj
      · split at hi
        · rename_i k hk
          cases hi
          exact findColumnIndex_lt hk
        · cases hi
      · exact hlt j hj

theorem insertColumnMap_ne_fault (schema : TableSchema) (names : List Str) :
    insertColumnMap schema names ≠ .fault := by
  apply Result.mapList_ne_fault
  intro n _
  split
  · simp
  · exact Result.makeError_ne_fault _ _

/-- An input row with a value for every name never makes `INSERT` throw. -/
theorem buildInsertRow_ne_fault {schema : TableSchema} {map : List Nat} {input : List Expression}
    (hlen : input.length = map.length) (hmap : ∀ i ∈ map, i < schema.columns.length) :
    buildInsertRow schema map input ≠ .fault := by
  unfold buildInsertRow
  cases hf : fillRow map input (List.replicate schema.columns.length Value.null) with
  | error e => simp
  | fault => exact absurd hf (fillRow_ne_fault hlen (by simpa using hmap))
  | ok vs =>
      have hvs := fillRow_length hf
      rw [List.length_replicate] at hvs
      simp only [Result.ok_bind, validateRowAgainstSchema]
      cases hv : validateValues schema.columns vs with
      | ok vs' => simp
      | error e => simp
      | fault => exact absurd hv (validateValues_ne_fault hvs)

/-- A built row has a key in every INDEXED column. -/
theorem buildInsertRow_keyed {d t n : Str} {schema : TableSchema} (hs : SchemaOk d t schema)
    (hn : n ∈ indexedColumns schema) {map : List Nat} {input : List Expression} {row : RowData}
    (h : buildInsertRow schema map input = .ok row) : ∃ k, indexKey schema n row = some k := by
  obtain ⟨hid, hlen⟩ := buildInsertRow_ok h
  rw [hs.indexedColumns_eq] at hn
  obtain ⟨c, hc, rfl⟩ := List.mem_map.mp hn
  obtain ⟨hc, hidx⟩ := List.mem_filter.mp hc
  obtain ⟨i, hi⟩ := List.mem_iff_getElem?.mp hc
  have hil : i < row.values.length := hlen ▸ (List.getElem?_eq_some_iff.mp hi).1
  have hv : row.values[i]? = some row.values[i] := List.getElem?_eq_getElem hil
  obtain ⟨vs, -, hval⟩ := Result.bind_eq_ok.mp h
  obtain ⟨vs', hvs', heq⟩ := Result.bind_eq_ok.mp hval
  cases heq
  have hfit := validateValues_fits hvs' hi hv
  have hallow : allowsNull c = false := by
    have : c.constraint = .indexed := by simpa using hidx
    simp [allowsNull, this]
  rw [hallow, canAssignToType] at hfit
  split at hfit
  · cases hfit
  · rename_i hnull
    obtain ⟨k, hk⟩ := Option.isSome_iff_exists.mp
      (encodeIndexKey_isSome (Or.inr (of_decide_eq_true hfit)))
    exact ⟨k, indexKey_eq_some.mpr ⟨i, c, _, hs.findColumnIndex_eq hi, hi, hv,
      by simpa using hnull, hk⟩⟩

/-! ## §2. Which rows `INSERT` admits. -/

/-- The row has a key that no row of the table has, in every INDEXED column. -/
def KeysFree (table : TableRuntime) (row : RowData) : Prop :=
  ∀ n ∈ indexedColumns table.schema, ∃ k, indexKey table.schema n row = some k ∧
    ∀ s ∈ table.heap.rows, indexKey table.schema n s ≠ some k

/-- The lookup of one key. -/
theorem freshIndexKey_eq {schema : TableSchema} {rows : List RowData} {n k : Str}
    {tree : IndexTree} {row : RowData} (h : IndexOk schema rows n tree)
    (hk : indexKey schema n row = some k) :
    ∃ i, findColumnIndex schema n = some i ∧ freshIndexKey schema i row n tree =
      if rowsWithKey schema n rows k = [] then .ok k
      else .makeError .constraintViolation (str "duplicate value for INDEXED column: " ++ n) := by
  obtain ⟨i, v, c, hi, hcv, hnull, henc⟩ := columnValue_of_indexKey hk
  refine ⟨i, hi, ?_⟩
  simp [freshIndexKey, hcv, hnull, henc, h.find k]

theorem checkUnique_eq_ok {d t : Str} {table : TableRuntime} (h : TableOk d t table)
    {row : RowData} (hrow : ∀ n ∈ indexedColumns table.schema,
      ∃ k, indexKey table.schema n row = some k) :
    checkUnique table row = .ok () ↔ KeysFree table row := by
  rw [checkUnique, Result.forEach_eq_ok]
  constructor
  · intro hall n hn
    obtain ⟨tree, htree, hix⟩ := h.find_index hn
    obtain ⟨k, hk⟩ := hrow n hn
    obtain ⟨i, hi, hfresh⟩ := freshIndexKey_eq hix hk
    have hbody := hall (n, tree) (Dict.mem_entries_iff.mpr htree)
    simp only [hi, hfresh] at hbody
    refine ⟨k, hk, rowsWithKey_eq_nil.mp ?_⟩
    by_contra hne
    rw [if_neg hne] at hbody
    simp [Result.makeError] at hbody
  · rintro hfree ⟨n, tree⟩ hmem
    have hn : n ∈ indexedColumns table.schema := h.keys ▸ List.mem_map_of_mem hmem
    obtain ⟨k, hk, hnew⟩ := hfree n hn
    obtain ⟨i, hi, hfresh⟩ := freshIndexKey_eq (h.indexes n tree hmem) hk
    simp only [hi, hfresh, if_pos (rowsWithKey_eq_nil.mpr hnew)]
    rfl

theorem checkUnique_ne_fault {d t : Str} {table : TableRuntime} (h : TableOk d t table)
    {row : RowData} (hrow : ∀ n ∈ indexedColumns table.schema,
      ∃ k, indexKey table.schema n row = some k) : checkUnique table row ≠ .fault := by
  unfold checkUnique
  refine Result.forEach_ne_fault fun p hmem => ?_
  obtain ⟨n, tree⟩ := p
  have hn : n ∈ indexedColumns table.schema := h.keys ▸ List.mem_map_of_mem hmem
  obtain ⟨k, hk⟩ := hrow n hn
  obtain ⟨i, hi, hfresh⟩ := freshIndexKey_eq (h.indexes n tree hmem) hk
  simp only [hi, hfresh]
  split
  · simp
  · simp [Result.makeError]

/-- **`INSERT` admits a row that can be built and whose keys are free.** -/
theorem admitRow_eq_ok {d t : Str} {table : TableRuntime} (h : TableOk d t table)
    {map : List Nat} {input : List Expression} {row : RowData} :
    admitRow table map input = .ok row ↔
      buildInsertRow table.schema map input = .ok row ∧ KeysFree table row := by
  unfold admitRow
  rw [Result.bind_eq_ok]
  constructor
  · rintro ⟨r, hr, hrow⟩
    obtain ⟨u, hu, hrow⟩ := Result.bind_eq_ok.mp hrow
    cases hrow
    exact ⟨hr, (checkUnique_eq_ok h fun n hn => buildInsertRow_keyed h.schema hn hr).mp hu⟩
  · rintro ⟨hr, hfree⟩
    have hu := (checkUnique_eq_ok h fun n hn => buildInsertRow_keyed h.schema hn hr).mpr hfree
    exact ⟨row, hr, by rw [hu]; rfl⟩

theorem admitRow_ne_fault {d t : Str} {table : TableRuntime} (h : TableOk d t table)
    {map : List Nat} {input : List Expression} (hlen : input.length = map.length)
    (hmap : ∀ i ∈ map, i < table.schema.columns.length) : admitRow table map input ≠ .fault := by
  unfold admitRow
  cases hr : buildInsertRow table.schema map input with
  | error e => simp
  | fault => exact absurd hr (buildInsertRow_ne_fault hlen hmap)
  | ok row =>
      simp only [Result.ok_bind]
      cases hu : checkUnique table row with
      | ok u => simp
      | error e => simp
      | fault =>
          exact absurd hu (checkUnique_ne_fault h fun n hn => buildInsertRow_keyed h.schema hn hr)

/-! ## §3. The loop of `INSERT`. -/

/-- All rows can be built, and no key is taken by the table or by another of
the rows. -/
def AllAdmissible (table : TableRuntime) (map : List Nat) (inputs : List (List Expression)) :
    Prop :=
  ∃ rows, Result.mapList (buildInsertRow table.schema map) inputs = .ok rows ∧
    ∀ n ∈ indexedColumns table.schema, Indexable table.schema n (table.heap.rows ++ rows)

/-- Whether rows can be indexed depends on their keys. -/
theorem indexable_congr {schema : TableSchema} {n : Str} {rows rows' : List RowData}
    (h : rows'.map (indexKey schema n) = rows.map (indexKey schema n)) :
    Indexable schema n rows' ↔ Indexable schema n rows := by
  have key : ∀ l : List RowData, Indexable schema n l ↔
      (∀ o ∈ l.map (indexKey schema n), o.isSome) ∧ (l.map (indexKey schema n)).Nodup := by
    intro l
    simp [Indexable]
  rw [key, key, h]

/-- The first of several rows enters, the others follow. -/
theorem allAdmissible_cons {table table' : TableRuntime} {map : List Nat}
    {input : List Expression} {inputs : List (List Expression)} {row : RowData} {i : RowId}
    (hrow : buildInsertRow table.schema map input = .ok row)
    (hschema : table'.schema = table.schema)
    (hrows : table'.heap.rows = table.heap.rows ++ [{ row with rowId := i }]) :
    AllAdmissible table map (input :: inputs) ↔ AllAdmissible table' map inputs := by
  unfold AllAdmissible
  rw [hschema, hrows]
  have hkeys : ∀ (n : Str) (rows : List RowData),
      (table.heap.rows ++ [{ row with rowId := i }] ++ rows).map (indexKey table.schema n)
        = (table.heap.rows ++ row :: rows).map (indexKey table.schema n) := by
    intro n rows
    simp [indexKey_withId]
  constructor
  · rintro ⟨rows, hbuild, hix⟩
    simp only [Result.mapList_cons, hrow, Result.ok_bind] at hbuild
    obtain ⟨rest, hrest, heq⟩ := Result.bind_eq_ok.mp hbuild
    cases heq
    exact ⟨rest, hrest, fun n hn => (indexable_congr (hkeys n rest)).mpr (hix n hn)⟩
  · rintro ⟨rest, hrest, hix⟩
    refine ⟨row :: rest, by rw [Result.mapList_cons, hrow, hrest]; rfl, ?_⟩
    intro n hn
    exact (indexable_congr (hkeys n rest)).mp (hix n hn)

/-- Rows whose first one cannot be admitted are not all admissible. -/
theorem AllAdmissible.first {d t : Str} {table : TableRuntime} (h : TableOk d t table)
    {map : List Nat} {input : List Expression} {inputs : List (List Expression)}
    (hall : AllAdmissible table map (input :: inputs)) :
    ∃ row, admitRow table map input = .ok row := by
  obtain ⟨rows, hbuild, hix⟩ := hall
  rw [Result.mapList_cons] at hbuild
  obtain ⟨row, hrow, hbuild⟩ := Result.bind_eq_ok.mp hbuild
  obtain ⟨rest, -, heq⟩ := Result.bind_eq_ok.mp hbuild
  cases heq
  refine ⟨row, (admitRow_eq_ok h).mpr ⟨hrow, ?_⟩⟩
  intro n hn
  exact (hix n hn).key_new

/-- **The loop of `INSERT`**: it never throws, it succeeds exactly when all
rows are admissible, and the rows stored so far are at the end of the heap. -/
theorem insertRows_spec (env : Env) {d t : Str} {map : List Nat}
    {inputs : List (List Expression)} {table : TableRuntime} (v : VersionStore)
    (h : TableOk d t table) (hlen : ∀ input ∈ inputs, input.length = map.length)
    (hmap : ∀ i ∈ map, i < table.schema.columns.length) :
    (insertRows env d map inputs table v).2.2 ≠ .fault ∧
    ((insertRows env d map inputs table v).2.2 = .ok () ↔ AllAdmissible table map inputs) ∧
    ∃ rows, (insertRows env d map inputs table v).1.heap.rows = table.heap.rows ++ rows := by
  induction inputs generalizing table v with
  | nil =>
      refine ⟨by simp [insertRows], ⟨fun _ => ⟨[], rfl, ?_⟩, fun _ => rfl⟩, [], by simp [insertRows]⟩
      intro n hn
      simpa using h.indexable hn
  | cons input inputs ih =>
      rw [insertRows]
      have hin := hlen input (List.mem_cons_self ..)
      cases hrow : admitRow table map input with
      | fault => exact absurd hrow (admitRow_ne_fault h hin hmap)
      | error e =>
          refine ⟨by simp, ⟨fun hr => (by cases hr), ?_⟩, [], by simp⟩
          intro hall
          obtain ⟨row, hr⟩ := hall.first h
          rw [hrow] at hr
          cases hr
      | ok row =>
          obtain ⟨hbuild, -⟩ := (admitRow_eq_ok h).mp hrow
          obtain ⟨hid, hl, hnew⟩ := admitRow_ok h hrow
          obtain ⟨table', hrun, hok, hschema, hrows⟩ := storeRow_ok env v h hid hl hnew
          simp only [hrun]
          obtain ⟨h1, h2, rows, h3⟩ := ih _ hok (fun x hx => hlen x (List.mem_cons_of_mem _ hx))
            (by rw [hschema]; exact hmap)
          refine ⟨h1, h2.trans (allAdmissible_cons hbuild hschema hrows).symm, ?_⟩
          exact ⟨_, by rw [h3, hrows, List.append_assoc]⟩

/-- A first row that is admitted stays. -/
theorem insertRows_first (env : Env) {d t : Str} {map : List Nat} {input : List Expression}
    {inputs : List (List Expression)} {table : TableRuntime} {row : RowData} (v : VersionStore)
    (h : TableOk d t table) (hlen : ∀ x ∈ input :: inputs, x.length = map.length)
    (hmap : ∀ i ∈ map, i < table.schema.columns.length)
    (hrow : admitRow table map input = .ok row) :
    (insertRows env d map (input :: inputs) table v).1.heap.rows ≠ table.heap.rows := by
  obtain ⟨hid, hl, hnew⟩ := admitRow_ok h hrow
  obtain ⟨table', hrun, hok, hschema, hrows⟩ := storeRow_ok env v h hid hl hnew
  rw [insertRows, hrow]
  simp only [hrun]
  obtain ⟨-, -, rows, hr⟩ := insertRows_spec env (appendChangeEvent env v .insertRow d
    table.schema.tableName none none (some { row with rowId := some table.heap.nextRowId })) hok
    (fun x hx => hlen x (List.mem_cons_of_mem _ hx)) (by rw [hschema]; exact hmap)
  rw [hr, hrows]
  intro heq
  have := congrArg List.length heq
  simp at this

/-! ## §4. Statements that fail. -/

/-- A failing statement on one table that leaves the table alone. -/
def KeepsTable (f : Str → TableRuntime → VersionStore →
    TableRuntime × VersionStore × Result QueryResult) : Prop :=
  ∀ d table v err, (f d table v).2.2 = .error err → (f d table v).1 = table

theorem replaceRows_error {table : TableRuntime} {v : VersionStore} {rows : List RowData}
    {message : Str} {err : Error} (h : (replaceRows table v rows message).2.2 = .error err) :
    (replaceRows table v rows message).1 = table := by
  unfold replaceRows at h ⊢
  split at h
  · cases h
  · rfl
  · cases h

theorem keepsTable_update (env : Env) (stmt : UpdateStatement) :
    KeepsTable (executeUpdate env stmt) := by
  intro d table v err h
  simp only [executeUpdate] at h ⊢
  generalize updateRows env d table.schema stmt table.heap.scanAll v = r at h ⊢
  obtain ⟨v', res⟩ := r
  cases res with
  | ok p => exact replaceRows_error h
  | error e => rfl
  | fault => rfl

theorem keepsTable_delete (env : Env) (stmt : DeleteStatement) :
    KeepsTable (executeDelete env stmt) := by
  intro d table v err h
  simp only [executeDelete] at h ⊢
  generalize deleteRows env d table.schema stmt table.heap.scanAll v = r at h ⊢
  obtain ⟨v', res⟩ := r
  cases res with
  | ok p => exact replaceRows_error h
  | error e => rfl
  | fault => rfl

theorem keepsTable_revert (env : Env) (stmt : RevertStatement) :
    KeepsTable (executeRevert env stmt) := by
  intro d table v err h
  unfold executeRevert at h ⊢
  cases htarget : revertTarget stmt d v with
  | error e => rfl
  | fault => rfl
  | ok target =>
      cases target with
      | none => rfl
      | some ts =>
          simp only [htarget] at h ⊢
          split at h
          · rename_i hany
            rw [if_pos hany]
          · rename_i hany
            rw [if_neg hany]
            exact replaceRows_error h

/-- Putting a table back changes nothing. -/
theorem setTable_self {s : Store} {d t : Str} {db : DatabaseRuntime} {table : TableRuntime}
    (hdb : s.runtime.databases.find? d = some db) (htable : db.tables.find? t = some table) :
    (s.setTable d t table).runtime = s.runtime := by
  have hmodify : s.runtime.databases.modify d (fun db =>
      { db with tables := db.tables.modify t fun _ => table }) = s.runtime.databases := by
    refine Dict.modify_eq_self fun db' hdb' => ?_
    obtain rfl : db = db' := by simpa using hdb.symm.trans hdb'
    have ht : db.tables.modify t (fun _ => table) = db.tables :=
      Dict.modify_eq_self fun tb htb => by simpa using htable.symm.trans htb
    rw [ht]
  unfold Store.setTable
  rw [hmodify]

/-- Where `withTable` gets to its table. -/
structure OnTable (s : Store) (session : SessionContext) (name : QualifiedName) (d : Str)
    (db : DatabaseRuntime) (table : TableRuntime) : Prop where
  database : resolveDatabaseName session name.databaseName = .ok d
  found : s.runtime.databases.find? d = some db
  table : db.tables.find? name.objectName = some table

theorem withTable_onTable {s : Store} {session : SessionContext} {name : QualifiedName} {d : Str}
    {db : DatabaseRuntime} {table : TableRuntime} (h : OnTable s session name d db table)
    (f : Str → TableRuntime → VersionStore → TableRuntime × VersionStore × Result QueryResult) :
    withTable s session name f = ({ s.setTable d name.objectName (f d table s.versions).1 with
      versions := (f d table s.versions).2.1 }, (f d table s.versions).2.2) := by
  simp only [withTable, h.database, h.found, h.table]

/-- Otherwise it changes nothing. -/
theorem withTable_cases (s : Store) (session : SessionContext) (name : QualifiedName) :
    (∃ d db table, OnTable s session name d db table) ∨
      ((∀ d db table, ¬ OnTable s session name d db table) ∧
        ∀ f, (withTable s session name f).1 = s) := by
  by_cases h : ∃ d db table, OnTable s session name d db table
  · exact .inl h
  · push Not at h
    refine .inr ⟨h, fun f => ?_⟩
    cases hd : resolveDatabaseName session name.databaseName with
    | error e => simp [withTable, hd]
    | fault => simp [withTable, hd]
    | ok d =>
        cases hdb : s.runtime.databases.find? d with
        | none => simp [withTable, hd, hdb]
        | some db =>
            cases ht : db.tables.find? name.objectName with
            | none => simp [withTable, hd, hdb, ht]
            | some table => exact absurd ⟨hd, hdb, ht⟩ (h d db table)

theorem withTable_keeps {s : Store} {session : SessionContext} {name : QualifiedName}
    {f : Str → TableRuntime → VersionStore → TableRuntime × VersionStore × Result QueryResult}
    (hf : KeepsTable f) {err : Error} (h : (withTable s session name f).2 = .error err) :
    (withTable s session name f).1.runtime = s.runtime := by
  rcases withTable_cases s session name with ⟨d, db, table, hon⟩ | ⟨-, hsame⟩
  · rw [withTable_onTable hon] at h ⊢
    rw [show (f d table s.versions).1 = table from hf d table s.versions err h]
    exact setTable_self hon.found hon.table
  · rw [hsame f]

theorem executeCreateDatabase_error {env : Env} {s : Store} {name : Str} {err : Error}
    (h : (executeCreateDatabase env s name).2 = .error err) :
    (executeCreateDatabase env s name).1.runtime = s.runtime := by
  unfold executeCreateDatabase at h ⊢
  split at h
  · rename_i hc
    rw [if_pos hc]
  · cases h

theorem executeDropDatabase_error {env : Env} {s : Store} {session : SessionContext} {name : Str}
    {err : Error} (h : (executeDropDatabase env s session name).2.2 = .error err) :
    (executeDropDatabase env s session name).1.runtime = s.runtime := by
  unfold executeDropDatabase at h ⊢
  split at h
  · cases h
  · rename_i hc
    rw [if_neg hc]

theorem executeCreateTable_error {env : Env} {s : Store} {session : SessionContext}
    {stmt : CreateTableStatement} {err : Error}
    (h : (executeCreateTable env s session stmt).2 = .error err) :
    (executeCreateTable env s session stmt).1.runtime = s.runtime := by
  unfold executeCreateTable at h ⊢
  cases hd : resolveDatabaseName session stmt.tableName.databaseName with
  | error e => rfl
  | fault => rfl
  | ok d =>
      cases hdb : s.runtime.databases.find? d with
      | none => simp only [hdb]
      | some db =>
          simp only [hd, hdb] at h ⊢
          split at h
          · rename_i hc
            rw [if_pos hc]
          · cases h

theorem executeDropTable_error {env : Env} {s : Store} {session : SessionContext}
    {name : QualifiedName} {err : Error}
    (h : (executeDropTable env s session name).2 = .error err) :
    (executeDropTable env s session name).1.runtime = s.runtime := by
  unfold executeDropTable at h ⊢
  cases hd : resolveDatabaseName session name.databaseName with
  | error e => rfl
  | fault => rfl
  | ok d =>
      cases hdb : s.runtime.databases.find? d with
      | none => simp only [hdb]
      | some db =>
          cases ht : db.tables.find? name.objectName with
          | none => simp only [hdb, ht]
          | some table =>
              simp only [hd, hdb, ht] at h
              cases h

/-- **The one statement that fails halfway**: an `INSERT` that gets to its
table, whose first row is admissible and not all of whose rows are. -/
def InsertStops (s : Store) (session : SessionContext) (statement : Statement) : Prop :=
  ∃ stmt d db table map input inputs row, statement = .insert stmt ∧
    OnTable s session stmt.tableName d db table ∧
    insertColumnMap table.schema stmt.columnNames = .ok map ∧
    stmt.rows = input :: inputs ∧ admitRow table map input = .ok row ∧
    ¬ AllAdmissible table map stmt.rows

/-- The rows of a validated `INSERT` have a value for every name. -/
theorem validateInsert_rows {stmt : InsertStatement} (h : validateInsert stmt = .ok ()) :
    ∀ row ∈ stmt.rows, row.length = stmt.columnNames.length := by
  unfold validateInsert at h
  split at h
  · cases h
  · split at h
    · cases h
    · split at h
      · cases h
      · split at h
        · rename_i hall
          intro row hrow
          simpa using List.all_eq_true.mp hall row hrow
        · cases h

theorem validateInsert_rows_ne {stmt : InsertStatement} (h : validateInsert stmt = .ok ()) :
    stmt.rows ≠ [] := by
  unfold validateInsert at h
  split at h
  · cases h
  · split at h
    · cases h
    · assumption

/-- `INSERT` on its table. -/
theorem executeInsert_keeps_iff (env : Env) {d t : Str} {table : TableRuntime}
    {stmt : InsertStatement} (h : TableOk d t table) (hval : validateInsert stmt = .ok ())
    (v : VersionStore) :
    (∀ err, (executeInsert env stmt d table v).2.2 = .error err →
      (executeInsert env stmt d table v).1 = table) ↔
    ¬ ∃ map input inputs row, insertColumnMap table.schema stmt.columnNames = .ok map ∧
      stmt.rows = input :: inputs ∧ admitRow table map input = .ok row ∧
      ¬ AllAdmissible table map stmt.rows := by
  unfold executeInsert
  cases hmap : insertColumnMap table.schema stmt.columnNames with
  | error e =>
      refine iff_of_true (fun _ _ => rfl) ?_
      rintro ⟨map, input, inputs, row, ⟨⟩, -⟩
  | fault => exact absurd hmap (insertColumnMap_ne_fault _ _)
  | ok map =>
      obtain ⟨hlen, hlt⟩ := insertColumnMap_ok hmap
      have hrows : ∀ x ∈ stmt.rows, x.length = map.length := by
        intro x hx
        rw [hlen]
        exact validateInsert_rows hval x hx
      obtain ⟨hnf, hok, -⟩ := insertRows_spec env v h hrows hlt
      constructor
      · -- the loop stops behind the first row
        rintro hkeep ⟨map', input, inputs, row, ⟨⟩, hcons, hrow, hnot⟩
        cases hres : (insertRows env d map stmt.rows table v).2.2 with
        | ok u => exact hnot (hok.mp hres)
        | fault => exact hnf hres
        | error err =>
            have hsame := hkeep err (by simp [hres, Result.map])
            rw [hcons] at hsame hrows
            exact insertRows_first env v h hrows hlt hrow
              (congrArg (fun tb : TableRuntime => tb.heap.rows) hsame)
      · -- it stops at the first row, or not at all
        intro hno err herr
        cases hcons : stmt.rows with
        | nil => rfl
        | cons input inputs =>
            cases hrow : admitRow table map input with
            | error e => simp [insertRows, hrow]
            | fault => simp [insertRows, hrow]
            | ok row =>
                have hall : AllAdmissible table map stmt.rows := by
                  by_contra hnot
                  exact hno ⟨map, input, inputs, row, rfl, hcons, hrow, hnot⟩
                simp only [hok.mpr hall, Result.map_ok] at herr
                cases herr

/-- **A statement that returns an error has changed no table, unless it is an
`INSERT` that stops behind its first row.** -/
theorem execute_keeps_iff (env : Env) {s : Store} (h : StoreOk s) (session : SessionContext)
    {statement : Statement} (hval : validateStatement statement = .ok ()) (detail : Str) :
    (∀ err, (execute env s session statement detail).2.2 = .error err →
      (execute env s session statement detail).1.runtime = s.runtime) ↔
    ¬ InsertStops s session statement := by
  have hother : (∀ stmt, statement ≠ .insert stmt) → ¬ InsertStops s session statement := by
    rintro hne ⟨stmt, -, -, -, -, -, -, -, heq, -⟩
    exact hne stmt heq
  cases statement with
  | insert stmt =>
      rcases withTable_cases s session stmt.tableName with ⟨d, db, table, hon⟩ | ⟨hoff, hsame⟩
      · have htab := (h.state d db hon.found).tables _ _ hon.table
        have hiff := executeInsert_keeps_iff env htab hval s.versions
        simp only [execute, withTable_onTable hon]
        constructor
        · rintro hkeep ⟨stmt', d', db', table', map, input, inputs, row, ⟨⟩, hon', hrest⟩
          obtain rfl : d = d' := by simpa using hon.database.symm.trans hon'.database
          obtain rfl : db = db' := by simpa using hon.found.symm.trans hon'.found
          obtain rfl : table = table' := by simpa using hon.table.symm.trans hon'.table
          refine hiff.mp (fun err herr => ?_) ⟨map, input, inputs, row, hrest⟩
          have hrt := hkeep err herr
          have hfind : (s.setTable d stmt.tableName.objectName
              (executeInsert env stmt d table s.versions).1).runtime.databases.find? d = some db := by
            rw [show (s.setTable d stmt.tableName.objectName
              (executeInsert env stmt d table s.versions).1).runtime = s.runtime from hrt]
            exact hon.found
          rw [Store.setTable, Dict.find?_modify, if_pos rfl, hon.found] at hfind
          have hdb := congrArg DatabaseRuntime.tables (Option.some.inj hfind)
          have htb := congrArg (fun m => m.find? stmt.tableName.objectName) hdb
          simp only [Dict.find?_modify, hon.table] at htb
          simpa using htb
        · intro hno err herr
          have hkept := hiff.mpr (by
            rintro ⟨map, input, inputs, row, hrest⟩
            exact hno ⟨stmt, d, db, table, map, input, inputs, row, rfl, hon, hrest⟩) err herr
          rw [hkept]
          exact setTable_self hon.found hon.table
      · refine iff_of_true (fun err _ => ?_) ?_
        · show (withTable s session stmt.tableName (executeInsert env stmt)).1.runtime = s.runtime
          rw [hsame]
        · rintro ⟨stmt', d, db, table, map, input, inputs, row, ⟨⟩, hon, -⟩
          exact hoff d db table hon
  | update stmt =>
      exact iff_of_true (fun err => withTable_keeps (keepsTable_update env stmt))
        (hother (by simp))
  | delete stmt =>
      exact iff_of_true (fun err => withTable_keeps (keepsTable_delete env stmt))
        (hother (by simp))
  | revert stmt =>
      exact iff_of_true (fun err => withTable_keeps (keepsTable_revert env stmt))
        (hother (by simp))
  | select stmt =>
      exact iff_of_true (fun err => withTable_keeps fun _ _ _ _ _ => rfl) (hother (by simp))
  | createDatabase name =>
      exact iff_of_true (fun err => executeCreateDatabase_error) (hother (by simp))
  | dropDatabase name =>
      exact iff_of_true (fun err => executeDropDatabase_error) (hother (by simp))
  | createTable stmt =>
      exact iff_of_true (fun err => executeCreateTable_error) (hother (by simp))
  | dropTable name =>
      exact iff_of_true (fun err => executeDropTable_error) (hother (by simp))
  | rebuildIndex =>
      refine iff_of_true (fun err herr => ?_) (hother (by simp))
      obtain ⟨s', hrun, -⟩ := rebuildRuntimeIndexes_ok h.state
      simp only [execute, executeRebuildIndex, hrun] at herr
      cases herr
  | checkIndex => exact iff_of_true (fun _ _ => rfl) (hother (by simp))
  | useDatabase name => exact iff_of_true (fun _ _ => rfl) (hother (by simp))
  | unknown raw => exact iff_of_true (fun _ _ => rfl) (hother (by simp))
  | beginTransaction => exact iff_of_true (fun _ _ => rfl) (hother (by simp))
  | commitTransaction => exact iff_of_true (fun _ _ => rfl) (hother (by simp))
  | rollbackTransaction => exact iff_of_true (fun _ _ => rfl) (hother (by simp))

end CustomDbms.Execution
