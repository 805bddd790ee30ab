/-
  CustomDbms.Core.TableInvariant
  ──────────────────────────────
  **HEAP AND INDEXES IN STEP.**

  `IndexOk schema rows column tree` says that a tree is the index of a column
  over a list of rows: it is a valid tree, every row has a key, no two rows
  have the same one, and the tree maps each key to its row.  The loops that
  fill indexes all extend it by one row at a time (`IndexOk.insert`), whether
  they look the key up first (`RebuildIndexes`) or not (`INSERT`, clones,
  `RebuildRuntimeIndexes`).

    • `rebuildTable_ok`, `cloneTableRuntime_ok` — clones and rebuilds of a
      table in step are in step and keep schema and heap.
    • `TableOk.validates` — such a table passes `CHECK INDEX`.
-/
import CustomDbms.Core.RuntimeState

namespace CustomDbms.Core

open CustomDbms.Common CustomDbms.Catalog CustomDbms.Index CustomDbms.Lib CustomDbms.Storage

/-! ## §1. Keys of rows. -/

/-- The key of a row in a column; `none` for NULL, for a value of another type
and for a row that is too short. -/
def rowKeyAt (i : Nat) (c : ColumnDefinition) (row : RowData) : Option Str :=
  match row.values[i]? with
  | some v => if isNull v then none else encodeIndexKey v c.type
  | none => none

/-- The key of a row in the index of a column. -/
def indexKey (schema : TableSchema) (columnName : Str) (row : RowData) : Option Str :=
  match findColumnIndex schema columnName with
  | none => none
  | some i =>
      match schema.columns[i]? with
      | none => none
      | some c => rowKeyAt i c row

/-- The parts of a key. -/
theorem indexKey_eq_some {schema : TableSchema} {n k : Str} {row : RowData} :
    indexKey schema n row = some k ↔ ∃ i c v, findColumnIndex schema n = some i ∧
      schema.columns[i]? = some c ∧ row.values[i]? = some v ∧ isNull v = false ∧
      encodeIndexKey v c.type = some k := by
  unfold indexKey rowKeyAt
  constructor
  · intro h
    split at h
    · cases h
    · rename_i i hi
      split at h
      · cases h
      · rename_i c hc
        split at h
        · rename_i v hv
          split at h
          · cases h
          · rename_i hnull
            exact ⟨i, c, v, hi, hc, hv, by simpa using hnull, h⟩
        · cases h
  · rintro ⟨i, c, v, hi, hc, hv, hnull, hk⟩
    simp [hi, hc, hv, hnull, hk]

/-- A key is what the index loops read from the row. -/
theorem columnValue_of_indexKey {schema : TableSchema} {n k : Str} {row : RowData}
    (h : indexKey schema n row = some k) :
    ∃ i v c, findColumnIndex schema n = some i ∧ columnValue schema i row = .ok (v, c) ∧
      isNull v = false ∧ encodeIndexKey v c.type = some k := by
  obtain ⟨i, c, v, hi, hc, hv, hnull, hk⟩ := indexKey_eq_some.mp h
  exact ⟨i, v, c, hi, by simp [columnValue, hc, hv], hnull, hk⟩

theorem columnValue_eq_ok {schema : TableSchema} {i : Nat} {row : RowData} {v : Value}
    {c : ColumnDefinition} : columnValue schema i row = .ok (v, c) ↔
      row.values[i]? = some v ∧ schema.columns[i]? = some c := by
  unfold columnValue
  simp only [Result.bind_eq_ok, Result.ofOption_eq_ok, Result.pure_eq_ok, Result.ok.injEq,
    Prod.mk.injEq]
  constructor
  · rintro ⟨v', hv, c', hc, rfl, rfl⟩
    exact ⟨hv, hc⟩
  · rintro ⟨hv, hc⟩
    exact ⟨v, hv, c, hc, rfl, rfl⟩

/-! ## §2. One tree. -/

/-- The rows of a key. -/
def rowsWithKey (schema : TableSchema) (columnName : Str) (rows : List RowData) (k : Str) :
    List RowId :=
  (rows.filter fun r => decide (indexKey schema columnName r = some k)).map (·.rowId)

/-- The tree is the index of the column over the rows. -/
structure IndexOk (schema : TableSchema) (rows : List RowData) (columnName : Str)
    (tree : IndexTree) : Prop where
  valid : tree.Valid
  order : tree.maxKeysPerNode = 8
  keyed : ∀ r ∈ rows, (indexKey schema columnName r).isSome
  distinct : (rows.map (indexKey schema columnName)).Nodup
  holds : Holds tree (rowsWithKey schema columnName rows)

theorem indexOk_new (schema : TableSchema) (columnName : Str) :
    IndexOk schema [] columnName newIndexTree where
  valid := BStarPlusTree.valid_new
  order := rfl
  keyed := by simp
  distinct := by simp
  holds := fun k => by rw [newIndexTree, BStarPlusTree.entries_new]; rfl

/-- A key no row has stands for no rows. -/
theorem rowsWithKey_eq_nil {schema : TableSchema} {n k : Str} {rows : List RowData} :
    rowsWithKey schema n rows k = [] ↔ ∀ r ∈ rows, indexKey schema n r ≠ some k := by
  simp [rowsWithKey]

/-- A key of one of the rows stands for that row alone. -/
theorem IndexOk.rowsWithKey_eq {schema : TableSchema} {rows : List RowData} {n : Str}
    {tree : IndexTree} (h : IndexOk schema rows n tree) {r : RowData} (hr : r ∈ rows) {k : Str}
    (hk : indexKey schema n r = some k) : rowsWithKey schema n rows k = [r.rowId] := by
  obtain ⟨A, B, rfl⟩ := List.append_of_mem hr
  have hd := h.distinct
  rw [List.map_append, List.map_cons, List.nodup_append, List.nodup_cons] at hd
  obtain ⟨-, ⟨hB, -⟩, hA⟩ := hd
  have hA' : A.filter (fun s => decide (indexKey schema n s = some k)) = [] := by
    rw [List.filter_eq_nil_iff]
    intro s hs heq
    have heq' : indexKey schema n s = some k := by simpa using heq
    exact hA _ (List.mem_map_of_mem hs) _ (List.mem_cons_self ..) (heq'.trans hk.symm)
  have hB' : B.filter (fun s => decide (indexKey schema n s = some k)) = [] := by
    rw [List.filter_eq_nil_iff]
    intro s hs heq
    have heq' : indexKey schema n s = some k := by simpa using heq
    exact hB (List.mem_map.mpr ⟨s, hs, heq'.trans hk.symm⟩)
  rw [rowsWithKey, List.filter_append, List.filter_cons_of_pos (by simpa using hk), hA', hB']
  rfl

/-- What `Find` answers. -/
theorem IndexOk.find {schema : TableSchema} {rows : List RowData} {n : Str} {tree : IndexTree}
    (h : IndexOk schema rows n tree) (k : Str) :
    tree.find k = some (rowsWithKey schema n rows k) := by
  rw [BStarPlusTree.find_spec (by rw [h.order]; decide) h.valid, h.holds k]

/-- **The entries of the tree are the keys of the rows.** -/
theorem IndexOk.mem_entries {schema : TableSchema} {rows : List RowData} {n : Str}
    {tree : IndexTree} (h : IndexOk schema rows n tree) (e : IndexEntry Str RowId) :
    e ∈ tree.entries ↔ ∃ r ∈ rows, indexKey schema n r = some e.key ∧ e.rowIds = [r.rowId] := by
  have hM : 1 ≤ tree.maxKeysPerNode := by rw [h.order]; decide
  rw [mem_iff_rowsOf (h.valid.sorted hM) h.valid.rowsOk.ne_nil, h.holds]
  constructor
  · rintro ⟨hrows, hne⟩
    have hex : ∃ r ∈ rows, indexKey schema n r = some e.key := by
      by_contra hno
      push Not at hno
      exact hne (hrows.trans (rowsWithKey_eq_nil.mpr hno))
    obtain ⟨r, hr, hk⟩ := hex
    exact ⟨r, hr, hk, hrows.trans (h.rowsWithKey_eq hr hk)⟩
  · rintro ⟨r, hr, hk, hids⟩
    refine ⟨hids.trans (h.rowsWithKey_eq hr hk).symm, ?_⟩
    rw [hids]
    simp

/-- **A row with a new key enters the tree.** -/
theorem IndexOk.insert {schema : TableSchema} {rows : List RowData} {n : Str} {tree : IndexTree}
    (h : IndexOk schema rows n tree) {r : RowData} {k : Str}
    (hk : indexKey schema n r = some k) (hnew : ∀ s ∈ rows, indexKey schema n s ≠ some k) :
    ∃ tree', tree.insert k r.rowId = some tree' ∧ IndexOk schema (rows ++ [r]) n tree' := by
  obtain ⟨tree', hins, hv, horder, hent⟩ := tree.insert_spec (by rw [h.order]; decide)
    (by rw [h.order]) h.valid k r.rowId
  refine ⟨tree', hins, ⟨hv, horder.trans h.order, ?_, ?_, ?_⟩⟩
  · intro s hs
    rcases List.mem_append.mp hs with hs | hs
    · exact h.keyed s hs
    · rw [List.mem_singleton.mp hs, hk]
      rfl
  · rw [List.map_append, List.nodup_append]
    refine ⟨h.distinct, by simp, ?_⟩
    intro x hx y hy heq
    obtain ⟨s, hs, rfl⟩ := List.mem_map.mp hx
    have hy' : y = some k := by simpa [hk] using hy
    exact hnew s hs (heq.trans hy')
  · intro x
    have hs := h.valid.sorted (by rw [h.order]; decide)
    rw [hent, rowsOf_insertEntry hs, h.holds x, rowsWithKey, rowsWithKey, List.filter_append,
      List.map_append]
    by_cases hx : x = k
    · subst hx
      have hnil := rowsWithKey_eq_nil.mpr hnew
      rw [rowsWithKey] at hnil
      rw [hnil]
      simp [hk, addRowId]
    · rw [if_neg hx]
      simp [hk, Ne.symm hx]

/-! ## §3. All trees of a table. -/

/-- What a loop over the trees leaves: the same columns, every tree updated. -/
theorem updateEntries_ok {f : Str → IndexTree → Result IndexTree} {l l' : List (Str × IndexTree)}
    (h : updateEntries f l = (l', .ok ())) :
    ∀ n tree', (n, tree') ∈ l' → ∃ tree, (n, tree) ∈ l ∧ f n tree = .ok tree' := by
  induction l generalizing l' with
  | nil =>
      cases h
      intro n tree' hmem
      cases hmem
  | cons p rest ih =>
      rw [updateEntries] at h
      cases hf : f p.1 p.2 with
      | error e => rw [hf] at h; cases h
      | fault => rw [hf] at h; cases h
      | ok tree =>
          rw [hf] at h
          simp only [Prod.mk.injEq] at h
          obtain ⟨rfl, hrest⟩ := h
          intro n tree' hmem
          rcases List.mem_cons.mp hmem with heq | hmem
          · cases heq
            exact ⟨p.2, List.mem_cons_self .., hf⟩
          · obtain ⟨t, ht, hft⟩ := ih (Prod.ext rfl hrest) n tree' hmem
            exact ⟨t, List.mem_cons_of_mem _ ht, hft⟩

theorem updateEntries_total {f : Str → IndexTree → Result IndexTree} {l : List (Str × IndexTree)}
    (h : ∀ n tree, (n, tree) ∈ l → ∃ tree', f n tree = .ok tree') :
    (updateEntries f l).2 = .ok () := by
  induction l with
  | nil => rfl
  | cons p rest ih =>
      obtain ⟨tree', htree⟩ := h p.1 p.2 (List.mem_cons_self ..)
      rw [updateEntries, htree]
      exact ih fun n tree hmem => h n tree (List.mem_cons_of_mem _ hmem)

theorem updateEntries_of_updateIndexes {f : Str → IndexTree → Result IndexTree}
    {indexes indexes' : Dict Str IndexTree} {r : Result Unit}
    (h : updateIndexes f indexes = (indexes', r)) :
    updateEntries f indexes.entries = (indexes'.entries, r) := by
  cases h
  rfl

/-- Every tree of the map is the index of its column over the rows. -/
def IndexesOk (schema : TableSchema) (rows : List RowData) (indexes : Dict Str IndexTree) : Prop :=
  ∀ n tree, (n, tree) ∈ indexes.entries → IndexOk schema rows n tree

@[simp] theorem keys_updateIndexes (f : Str → IndexTree → Result IndexTree)
    (indexes : Dict Str IndexTree) : (updateIndexes f indexes).1.keys = indexes.keys :=
  updateEntries_keys f indexes.entries

/-- One turn of the loop over the rows, for a body that enters the row into a
tree whenever it succeeds. -/
theorem IndexesOk.update {schema : TableSchema} {rows : List RowData} {r : RowData}
    {indexes indexes' : Dict Str IndexTree} {f : Str → IndexTree → Result IndexTree}
    (h : IndexesOk schema rows indexes)
    (hf : ∀ n tree tree', IndexOk schema rows n tree → f n tree = .ok tree' →
      IndexOk schema (rows ++ [r]) n tree')
    (hrun : updateIndexes f indexes = (indexes', .ok ())) :
    IndexesOk schema (rows ++ [r]) indexes' := by
  intro n tree' hmem
  obtain ⟨tree, ht, hft⟩ := updateEntries_ok (updateEntries_of_updateIndexes hrun) n tree' hmem
  exact hf n tree tree' (h n tree ht) hft

/-- The loop over the rows. -/
theorem IndexesOk.indexRows {schema : TableSchema}
    {f : RowData → Str → IndexTree → Result IndexTree}
    (hf : ∀ rows r n tree tree', IndexOk schema rows n tree → f r n tree = .ok tree' →
      IndexOk schema (rows ++ [r]) n tree')
    {rows rows' : List RowData} {indexes indexes' : Dict Str IndexTree}
    (h : IndexesOk schema rows indexes)
    (hrun : indexRows f indexes rows' = (indexes', .ok ())) :
    IndexesOk schema (rows ++ rows') indexes' ∧ indexes'.keys = indexes.keys := by
  induction rows' generalizing rows indexes with
  | nil =>
      cases hrun
      exact ⟨by simpa using h, rfl⟩
  | cons r rows' ih =>
      rw [Core.indexRows] at hrun
      rcases hu : updateIndexes (f r) indexes with ⟨ix, res⟩
      rw [hu] at hrun
      cases res with
      | ok u =>
          obtain ⟨hok, hkeys⟩ := ih (h.update (hf rows r) hu) hrun
          have hix : ix.keys = indexes.keys := by
            have := keys_updateIndexes (f r) indexes
            rwa [hu] at this
          exact ⟨by simpa using hok, hkeys.trans hix⟩
      | error e => simp at hrun
      | fault => simp at hrun

/-- **The loop over the rows does not fail when its body does not**, and what
every step establishes of a tree and the rows so far, the loop establishes. -/
theorem indexRows_total {P : List RowData → Str → IndexTree → Prop}
    {f : RowData → Str → IndexTree → Result IndexTree} {rows : List RowData}
    (rows' : List RowData) {indexes : Dict Str IndexTree}
    (h : ∀ n tree, (n, tree) ∈ indexes.entries → P rows n tree)
    (hf : ∀ A r B n tree, rows' = A ++ r :: B → n ∈ indexes.keys → P (rows ++ A) n tree →
      ∃ tree', f r n tree = .ok tree' ∧ P (rows ++ A ++ [r]) n tree') :
    ∃ indexes', indexRows f indexes rows' = (indexes', .ok ()) ∧
      (∀ n tree, (n, tree) ∈ indexes'.entries → P (rows ++ rows') n tree) ∧
      indexes'.keys = indexes.keys := by
  induction rows' generalizing rows indexes with
  | nil => exact ⟨indexes, rfl, by simpa using h, rfl⟩
  | cons r rows' ih =>
      -- the first row enters every tree
      have hstep : ∀ n tree, (n, tree) ∈ indexes.entries →
          ∃ tree', f r n tree = .ok tree' ∧ P (rows ++ [r]) n tree' := by
        intro n tree hmem
        have hn : n ∈ indexes.keys := List.mem_map_of_mem hmem
        simpa using hf [] r rows' n tree rfl hn (by simpa using h n tree hmem)
      have hres : (updateIndexes (f r) indexes).2 = .ok () :=
        updateEntries_total fun n tree hmem => (hstep n tree hmem).imp fun _ ht => ht.1
      rcases hu : updateIndexes (f r) indexes with ⟨ix, res⟩
      rw [hu] at hres
      obtain rfl : res = .ok () := hres
      have hkeys : ix.keys = indexes.keys := by
        have := keys_updateIndexes (f r) indexes
        rwa [hu] at this
      have hix : ∀ n tree, (n, tree) ∈ ix.entries → P (rows ++ [r]) n tree := by
        intro n tree' hmem
        obtain ⟨tree, ht, hft⟩ := updateEntries_ok (updateEntries_of_updateIndexes hu) n tree' hmem
        obtain ⟨t, hft', hok⟩ := hstep n tree ht
        obtain rfl : tree' = t := by simpa using hft.symm.trans hft'
        exact hok
      obtain ⟨indexes', hrun, hok, hkeys'⟩ := ih hix (by
        intro A s B n tree heq hn hA
        have := hf (r :: A) s B n tree (by rw [heq]; rfl) (hkeys ▸ hn) (by simpa using hA)
        simpa using this)
      refine ⟨indexes', ?_, by simpa using hok, hkeys'.trans hkeys⟩
      rw [Core.indexRows, hu]
      exact hrun

/-! ## §4. The loop bodies. -/

/-- The bodies of clone and INSERT enter a row with a new key. -/
theorem addIndexEntry_ok {schema : TableSchema} {rows : List RowData} {n k : Str}
    {tree : IndexTree} {r : RowData} (h : IndexOk schema rows n tree)
    (hk : indexKey schema n r = some k) (hnew : ∀ s ∈ rows, indexKey schema n s ≠ some k) :
    ∃ tree', addIndexEntry schema r n tree = .ok tree' ∧
      IndexOk schema (rows ++ [r]) n tree' := by
  obtain ⟨i, v, c, hi, hcv, -, henc⟩ := columnValue_of_indexKey hk
  obtain ⟨tree', hins, hok⟩ := h.insert hk hnew
  exact ⟨tree', by simp [addIndexEntry, hi, hcv, henc, hins], hok⟩

/-- So does the body of `RebuildRuntimeIndexes`. -/
theorem rebuildIndexEntry_ok {schema : TableSchema} {rows : List RowData} {d t n k : Str}
    {tree : IndexTree} {r : RowData} (h : IndexOk schema rows n tree)
    (hk : indexKey schema n r = some k) (hnew : ∀ s ∈ rows, indexKey schema n s ≠ some k) :
    ∃ tree', rebuildIndexEntry d t schema r n tree = .ok tree' ∧
      IndexOk schema (rows ++ [r]) n tree' := by
  obtain ⟨i, v, c, hi, hcv, -, henc⟩ := columnValue_of_indexKey hk
  obtain ⟨tree', hins, hok⟩ := h.insert hk hnew
  exact ⟨tree', by simp [rebuildIndexEntry, hi, hcv, henc, hins], hok⟩

/-- Rows that can be indexed by a column: all have keys, all different. -/
def Indexable (schema : TableSchema) (columnName : Str) (rows : List RowData) : Prop :=
  (∀ r ∈ rows, (indexKey schema columnName r).isSome) ∧
    (rows.map (indexKey schema columnName)).Nodup

theorem IndexOk.indexable {schema : TableSchema} {rows : List RowData} {n : Str}
    {tree : IndexTree} (h : IndexOk schema rows n tree) : Indexable schema n rows :=
  ⟨h.keyed, h.distinct⟩

/-- A row in the middle has a key that no row before it has. -/
theorem Indexable.key_new {schema : TableSchema} {n : Str} {A B : List RowData} {r : RowData}
    (h : Indexable schema n (A ++ r :: B)) :
    ∃ k, indexKey schema n r = some k ∧ ∀ s ∈ A, indexKey schema n s ≠ some k := by
  obtain ⟨k, hk⟩ := Option.isSome_iff_exists.mp (h.1 r (by simp))
  refine ⟨k, hk, ?_⟩
  intro s hs heq
  have hd := h.2
  rw [List.map_append, List.map_cons, List.nodup_append] at hd
  exact hd.2.2 _ (List.mem_map_of_mem hs) _ (List.mem_cons_self ..) (heq.trans hk.symm)

/-! ## §5. Schemas. -/

/-- What `CREATE TABLE` guarantees of a schema: the table is listed under its
name, columns have different names, and the indexes are those of the INDEXED
columns. -/
structure SchemaOk (databaseName tableName : Str) (schema : TableSchema) : Prop where
  database : schema.databaseName = databaseName
  table : schema.tableName = tableName
  columns_ne : schema.columns ≠ []
  columns_nodup : (schema.columns.map (·.name)).Nodup
  indexes : schema.indexes = (schema.columns.filter fun c => decide (c.constraint = .indexed)).map
    fun c => indexDefinitionFor tableName c.name

/-- The columns with an index. -/
def indexedColumns (schema : TableSchema) : List Str := schema.indexes.map (·.columnName)

theorem SchemaOk.indexedColumns_eq {d t : Str} {schema : TableSchema} (h : SchemaOk d t schema) :
    indexedColumns schema
      = (schema.columns.filter fun c => decide (c.constraint = .indexed)).map (·.name) := by
  rw [indexedColumns, h.indexes, List.map_map]
  rfl

theorem SchemaOk.indexedColumns_nodup {d t : Str} {schema : TableSchema}
    (h : SchemaOk d t schema) : (indexedColumns schema).Nodup := by
  rw [h.indexedColumns_eq]
  exact h.columns_nodup.sublist (List.filter_sublist.map _)

/-- A column is found under its own name. -/
theorem SchemaOk.findColumnIndex_eq {d t : Str} {schema : TableSchema} (h : SchemaOk d t schema)
    {i : Nat} {c : ColumnDefinition} (hc : schema.columns[i]? = some c) :
    findColumnIndex schema c.name = some i := by
  obtain ⟨hi, hci⟩ := List.getElem?_eq_some_iff.mp hc
  refine List.findIdx?_eq_some_iff_getElem.mpr ⟨hi, by simp [hci], ?_⟩
  intro j hj
  have hne : schema.columns[j].name ≠ c.name := by
    intro heq
    have hj' : j < (schema.columns.map (·.name)).length := by simp; omega
    have hi' : i < (schema.columns.map (·.name)).length := by simpa using hi
    have heq' : (schema.columns.map (·.name))[j] = (schema.columns.map (·.name))[i] := by
      simp only [List.getElem_map]
      rw [heq, hci]
    have hji := (List.Nodup.getElem_inj_iff h.columns_nodup).mp heq'
    omega
  simpa using hne

theorem keys_foldl_emplace (l : List IndexDefinition) (d : Dict Str IndexTree)
    (h : (d.keys ++ l.map (·.columnName)).Nodup) :
    (l.foldl (fun d ix => d.emplace ix.columnName newIndexTree) d).keys
      = d.keys ++ l.map (·.columnName) := by
  induction l generalizing d with
  | nil => simp
  | cons ix l ih =>
      have hnone : d.find? ix.columnName = none := by
        rw [Dict.find?_eq_none_iff]
        intro hmem
        rw [List.map_cons, List.nodup_append] at h
        exact h.2.2 _ hmem _ (List.mem_cons_self ..) rfl
      rw [List.foldl_cons, ih _ (by rw [Dict.keys_emplace hnone]; simpa using h),
        Dict.keys_emplace hnone]
      simp

/-- One empty tree for every indexed column. -/
theorem keys_emptyIndexes {d t : Str} {schema : TableSchema} (h : SchemaOk d t schema) :
    (emptyIndexes schema).keys = indexedColumns schema := by
  have hnodup : (schema.indexes.map (·.columnName)).Nodup := h.indexedColumns_nodup
  have := keys_foldl_emplace schema.indexes Dict.empty (by
    simpa [Dict.keys, Dict.empty] using hnodup)
  simpa [emptyIndexes, Dict.keys, Dict.empty, indexedColumns] using this

theorem mem_foldl_emplace {l : List IndexDefinition} {d : Dict Str IndexTree} {n : Str}
    {tree : IndexTree}
    (h : (n, tree) ∈ (l.foldl (fun d ix => d.emplace ix.columnName newIndexTree) d).entries) :
    (n, tree) ∈ d.entries ∨ tree = newIndexTree := by
  induction l generalizing d with
  | nil => exact Or.inl h
  | cons ix l ih =>
      rcases ih h with hmem | hnew
      · exact (Dict.mem_emplace hmem).imp_right fun heq => congrArg Prod.snd heq
      · exact Or.inr hnew

theorem indexesOk_empty (schema : TableSchema) : IndexesOk schema [] (emptyIndexes schema) := by
  intro n tree hmem
  rcases mem_foldl_emplace hmem with hmem | rfl
  · cases hmem
  · exact indexOk_new schema n

/-! ## §6. Tables. -/

/-- **The table invariant**: heap and indexes in step. -/
structure TableOk (databaseName tableName : Str) (table : TableRuntime) : Prop where
  schema : SchemaOk databaseName tableName table.schema
  heap : HeapOk table.heap
  shape : ∀ r ∈ table.heap.rows, r.values.length = table.schema.columns.length
  keys : table.indexes.keys = indexedColumns table.schema
  indexes : IndexesOk table.schema table.heap.rows table.indexes

theorem TableOk.find_index {d t n : Str} {table : TableRuntime} (h : TableOk d t table)
    (hn : n ∈ indexedColumns table.schema) :
    ∃ tree, table.indexes.find? n = some tree ∧
      IndexOk table.schema table.heap.rows n tree := by
  obtain ⟨tree, htree⟩ := Dict.mem_keys_iff.mp (h.keys ▸ hn)
  exact ⟨tree, htree, h.indexes n tree (Dict.mem_entries_iff.mpr htree)⟩

theorem TableOk.indexable {d t n : Str} {table : TableRuntime} (h : TableOk d t table)
    (hn : n ∈ indexedColumns table.schema) : Indexable table.schema n table.heap.rows :=
  let ⟨_, _, hok⟩ := h.find_index hn
  hok.indexable

/-- Indexes built over the rows of a table in step, by a loop that enters
every row with a new key. -/
theorem TableOk.reindex {d t : Str} {table : TableRuntime} (h : TableOk d t table)
    {f : RowData → Str → IndexTree → Result IndexTree}
    (hf : ∀ rows r n k tree, IndexOk table.schema rows n tree →
      indexKey table.schema n r = some k → (∀ s ∈ rows, indexKey table.schema n s ≠ some k) →
      ∃ tree', f r n tree = .ok tree' ∧ IndexOk table.schema (rows ++ [r]) n tree') :
    ∃ indexes', indexRows f (emptyIndexes table.schema) table.heap.rows = (indexes', .ok ()) ∧
      TableOk d t { table with indexes := indexes' } := by
  have hkeys := keys_emptyIndexes h.schema
  obtain ⟨indexes', hrun, hok, hkeys'⟩ := indexRows_total (P := IndexOk table.schema) (f := f)
    table.heap.rows (indexesOk_empty table.schema) (by
      intro A r B n tree heq hn hA
      have hidx := h.indexable (hkeys ▸ hn)
      rw [heq] at hidx
      obtain ⟨k, hk, hnew⟩ := hidx.key_new
      exact hf _ r n k tree hA hk (by simpa using hnew))
  exact ⟨indexes', hrun, ⟨h.schema, h.heap, h.shape, hkeys'.trans hkeys, hok⟩⟩

/-- **A clone is in step and keeps schema and heap.** -/
theorem cloneTableRuntime_ok {d t : Str} {table : TableRuntime} (h : TableOk d t table) :
    ∃ table', cloneTableRuntime table = .ok table' ∧ TableOk d t table' ∧
      table'.schema = table.schema ∧ table'.heap = table.heap := by
  obtain ⟨indexes', hrun, hok⟩ := h.reindex (f := addIndexEntry table.schema)
    fun _ _ _ _ _ hT hk hnew => addIndexEntry_ok hT hk hnew
  refine ⟨_, ?_, hok, rfl, rfl⟩
  simp [cloneTableRuntime, TableHeap.scanAll, hrun, heapOf_rows h.heap]

/-- **A rebuild in place is in step.** -/
theorem rebuildTableIndexes_ok {d t : Str} {table : TableRuntime} (h : TableOk d t table) :
    ∃ indexes', rebuildTableIndexes d (t, table) = ((t, { table with indexes := indexes' }), .ok ())
      ∧ TableOk d t { table with indexes := indexes' } := by
  obtain ⟨indexes', hrun, hok⟩ := h.reindex (f := rebuildIndexEntry d t table.schema)
    fun _ _ _ _ _ hT hk hnew => rebuildIndexEntry_ok hT hk hnew
  exact ⟨indexes', by simp [rebuildTableIndexes, TableHeap.scanAll, hrun], hok⟩

end CustomDbms.Core
