/-
  CustomDbms.Core.IndexRebuild
  ────────────────────────────
  **`REBUILD INDEX` ON ANY STATE.**

  A rebuild looks at schemas and heaps only, so what the trees were before does
  not matter.  For rows with one well-typed value per column, NULL among them,
  every row has a key in every column, and the loops fill valid trees; the
  validation at the end then decides whether keys are distinct.

    • `validateIndexRows_eq_ok` — what the check of one index says of a tree;
    • `TreeOver` — a valid tree that maps each key to its rows;
    • `rebuild_repairs` — when a rebuild succeeds, and what it leaves.
-/
import CustomDbms.Core.StateInvariant

namespace CustomDbms.Core

open CustomDbms.Common CustomDbms.Catalog CustomDbms.Index CustomDbms.Lib CustomDbms.Storage

/-! ## §1. Keys of well-typed rows. -/

/-- A row with one value for each column, NULL or of the type of the column. -/
structure WellTyped (schema : TableSchema) (row : RowData) : Prop where
  length : row.values.length = schema.columns.length
  typed : ∀ (i : Nat) (v : Value) (c : ColumnDefinition), row.values[i]? = some v →
    schema.columns[i]? = some c → isNull v = true ∨ getValueType v = c.type

/-- What the index loops encode for a row; NULL has a key of its own. -/
def encodedKey (schema : TableSchema) (columnName : Str) (row : RowData) : Option Str := do
  let i ← findColumnIndex schema columnName
  let v ← row.values[i]?
  let c ← schema.columns[i]?
  encodeIndexKey v c.type

/-- A well-typed row has a key in each column, and the loops read it. -/
theorem WellTyped.key {schema : TableSchema} {row : RowData} (h : WellTyped schema row) {n : Str}
    {i : Nat} (hi : findColumnIndex schema n = some i) :
    ∃ v c k, columnValue schema i row = .ok (v, c) ∧ encodeIndexKey v c.type = some k ∧
      encodedKey schema n row = some k := by
  have hlt := findColumnIndex_lt hi
  have hc := List.getElem?_eq_getElem hlt
  have hv := List.getElem?_eq_getElem (h.length ▸ hlt)
  obtain ⟨k, hk⟩ := Option.isSome_iff_exists.mp (encodeIndexKey_isSome (h.typed i _ _ hv hc))
  refine ⟨_, _, k, columnValue_eq_ok.mpr ⟨hv, hc⟩, hk, ?_⟩
  simp [encodedKey, hi, hv, hc, hk]

/-- **The check of one index**, whatever its tree: no key twice, and the tree
finds each row, and nothing else, under its key. -/
theorem validateIndexRows_eq_ok {path : Str} {schema : TableSchema} {n : Str} {tree : IndexTree}
    {i : Nat} (hi : findColumnIndex schema n = some i) {rows : List RowData}
    (hrows : ∀ r ∈ rows, WellTyped schema r) (seen : List Str) :
    validateIndexRows path schema tree i seen rows = .ok () ↔
      (rows.map (encodedKey schema n)).Nodup ∧
        ∀ r ∈ rows, ∀ k, encodedKey schema n r = some k →
          k ∉ seen ∧ tree.find k = some [r.rowId] := by
  induction rows generalizing seen with
  | nil => exact iff_of_true rfl ⟨List.nodup_nil, fun r hr => absurd hr List.not_mem_nil⟩
  | cons r rows ih =>
      obtain ⟨v, c, k, hcv, henc, hkey⟩ := (hrows r List.mem_cons_self).key hi
      have hih := ih (fun r hr => hrows r (List.mem_cons_of_mem _ hr)) (k :: seen)
      rw [validateIndexRows, hcv]
      simp only [Result.ok_bind, henc, Result.ofOption_some]
      by_cases hseen : k ∈ seen
      · rw [if_pos hseen]
        refine iff_of_false (fun h => by cases h) fun h => ?_
        exact (h.2 r List.mem_cons_self k hkey).1 hseen
      · rw [if_neg hseen]
        by_cases hfind : tree.find k = some [r.rowId]
        · rw [hfind, Result.ofOption_some, Result.ok_bind, if_pos rfl, hih, List.map_cons,
            List.nodup_cons, hkey]
          constructor
          · rintro ⟨hnodup, hall⟩
            refine ⟨⟨fun hmem => ?_, hnodup⟩, fun s hs k' hk' => ?_⟩
            · obtain ⟨s, hs, hsk⟩ := List.mem_map.mp hmem
              exact (hall s hs k hsk).1 List.mem_cons_self
            · rcases List.mem_cons.mp hs with rfl | hs
              · obtain rfl := Option.some.inj (hkey.symm.trans hk')
                exact ⟨hseen, hfind⟩
              · exact ⟨fun hmem => (hall s hs k' hk').1 (List.mem_cons_of_mem _ hmem),
                  (hall s hs k' hk').2⟩
          · rintro ⟨⟨hnew, hnodup⟩, hall⟩
            refine ⟨hnodup, fun s hs k' hk' => ⟨fun hmem => ?_, ?_⟩⟩
            · rcases List.mem_cons.mp hmem with rfl | hmem
              · exact hnew (List.mem_map.mpr ⟨s, hs, hk'⟩)
              · exact (hall s (List.mem_cons_of_mem _ hs) k' hk').1 hmem
            · exact (hall s (List.mem_cons_of_mem _ hs) k' hk').2
        · refine iff_of_false (fun h => ?_) fun h => ?_
          · cases hf : tree.find k with
            | none =>
                rw [hf] at h
                cases h
            | some found =>
                rw [hf, Result.ofOption_some, Result.ok_bind, if_neg] at h
                · cases h
                · rintro rfl
                  exact hfind hf
          · exact hfind (h.2 r List.mem_cons_self k hkey).2

/-! ## §2. Trees over rows. -/

/-- The ids of the rows with a key. -/
def idsOf (key : RowData → Option Str) (rows : List RowData) (k : Str) : List RowId :=
  (rows.filter fun r => decide (key r = some k)).map (·.rowId)

/-- A valid tree that maps each key to its rows. -/
structure TreeOver (key : RowData → Option Str) (rows : List RowData) (tree : IndexTree) :
    Prop where
  valid : tree.Valid
  order : tree.maxKeysPerNode = 8
  holds : Holds tree (idsOf key rows)

section Trees

variable {key : RowData → Option Str} {rows : List RowData} {tree : IndexTree}

theorem treeOver_new (key : RowData → Option Str) : TreeOver key [] newIndexTree where
  valid := BStarPlusTree.valid_new
  order := rfl
  holds := fun k => by rw [newIndexTree, BStarPlusTree.entries_new]; rfl

/-- **A row with a new id enters the tree**, whether its key is new or not. -/
theorem TreeOver.insert (h : TreeOver key rows tree) {r : RowData} {k : Str}
    (hk : key r = some k) (hnew : r.rowId ∉ rows.map (·.rowId)) :
    ∃ tree', tree.insert k r.rowId = some tree' ∧ TreeOver key (rows ++ [r]) tree' := by
  have hM : 6 ≤ tree.maxKeysPerNode := by rw [h.order]; decide
  obtain ⟨tree', hins, hv, horder, hent⟩ :=
    tree.insert_spec hM (by rw [h.order]) h.valid k r.rowId
  refine ⟨tree', hins, hv, horder.trans h.order, fun x => ?_⟩
  have hsorted := h.valid.sorted (by omega)
  rw [hent, rowsOf_insertEntry hsorted, h.holds x, idsOf, idsOf, List.filter_append,
    List.map_append]
  by_cases hx : x = k
  · subst hx
    have hfresh : r.rowId ∉ (rows.filter fun s => decide (key s = some x)).map (·.rowId) :=
      fun hmem => hnew ((List.filter_sublist.map _).subset hmem)
    simp [hk, addRowId, hfresh]
  · rw [if_neg hx]
    simp [hk, Ne.symm hx]

theorem TreeOver.find (h : TreeOver key rows tree) (k : Str) :
    tree.find k = some (idsOf key rows k) := by
  rw [BStarPlusTree.find_spec (by rw [h.order]; decide) h.valid, h.holds k]

/-- Among distinct keys, the key of a row is that of this row alone. -/
theorem idsOf_eq_singleton (hnodup : (rows.map key).Nodup) {r : RowData} (hr : r ∈ rows) {k : Str}
    (hk : key r = some k) : idsOf key rows k = [r.rowId] := by
  have hfilter : rows.filter (fun s => decide (key s = some k)) = [r] := by
    obtain ⟨A, B, rfl⟩ := List.append_of_mem hr
    rw [List.map_append, List.map_cons, List.nodup_append, List.nodup_cons] at hnodup
    obtain ⟨-, ⟨hB, -⟩, hA⟩ := hnodup
    have hnone : ∀ {l : List RowData}, (∀ s ∈ l, key s ≠ key r) →
        l.filter (fun s => decide (key s = some k)) = [] := by
      intro l hl
      refine List.filter_eq_nil_iff.mpr fun s hs heq => hl s hs ?_
      rw [hk]
      exact of_decide_eq_true heq
    rw [List.filter_append, List.filter_cons_of_pos (by simpa using hk),
      hnone fun s hs heq => hA _ (List.mem_map_of_mem hs) _ List.mem_cons_self heq,
      hnone fun s hs heq => hB (List.mem_map.mpr ⟨s, hs, heq⟩), List.nil_append]
  rw [idsOf, hfilter]
  rfl

/-- **The entries of such a tree are the keys of the rows**, where keys are
distinct. -/
theorem TreeOver.mem_entries (h : TreeOver key rows tree) (hnodup : (rows.map key).Nodup)
    (e : IndexEntry Str RowId) :
    e ∈ tree.entries ↔ ∃ r ∈ rows, key r = some e.key ∧ e.rowIds = [r.rowId] := by
  have hM : 1 ≤ tree.maxKeysPerNode := by rw [h.order]; decide
  rw [mem_iff_rowsOf (h.valid.sorted hM) h.valid.rowsOk.ne_nil, h.holds]
  constructor
  · rintro ⟨hids, hne⟩
    rw [hids] at hne
    obtain ⟨id, hid⟩ := List.exists_mem_of_ne_nil _ hne
    obtain ⟨r, hr, -⟩ := List.mem_map.mp hid
    obtain ⟨hr, hk⟩ := List.mem_filter.mp hr
    have hkey : key r = some e.key := of_decide_eq_true hk
    exact ⟨r, hr, hkey, hids.trans (idsOf_eq_singleton hnodup hr hkey)⟩
  · rintro ⟨r, hr, hkey, hids⟩
    refine ⟨hids.trans (idsOf_eq_singleton hnodup hr hkey).symm, ?_⟩
    rw [hids]
    exact List.cons_ne_nil _ _

end Trees

/-! ## §3. Loops that rewrite. -/

section Loops

variable {α : Type} {f : α → α × Result Unit}

/-- A loop that succeeds has rewritten each element. -/
theorem rewriteEach_eq_ok (l : List α) :
    ((rewriteEach f l).2 = .ok () ↔ ∀ a ∈ l, (f a).2 = .ok ()) ∧
      ((rewriteEach f l).2 = .ok () → (rewriteEach f l).1 = l.map fun a => (f a).1) := by
  induction l with
  | nil => exact ⟨iff_of_true rfl fun a ha => absurd ha List.not_mem_nil, fun _ => rfl⟩
  | cons a l ih =>
      rw [rewriteEach, List.forall_mem_cons, List.map_cons]
      rcases hfa : f a with ⟨a', r⟩
      cases r with
      | ok u =>
          refine ⟨?_, fun h => congrArg _ (ih.2 h)⟩
          exact ih.1.trans (and_iff_right rfl).symm
      | error e =>
          refine ⟨iff_of_false (fun h => ?_) fun h => ?_, fun h => ?_⟩
          · cases h
          · cases h.1
          · cases h
      | fault =>
          refine ⟨iff_of_false (fun h => ?_) fun h => ?_, fun h => ?_⟩
          · cases h
          · cases h.1
          · cases h

/-- A loop whose steps do not see what they have rewritten does the same once
more. -/
theorem rewriteEach_again (hf : ∀ a, (f a).2 = .ok () → f (f a).1 = f a) {l : List α}
    (h : (rewriteEach f l).2 = .ok ()) :
    rewriteEach f (rewriteEach f l).1 = rewriteEach f l := by
  have hall := (rewriteEach_eq_ok l).1.mp h
  have hlist := (rewriteEach_eq_ok l).2 h
  have hagain : (rewriteEach f (rewriteEach f l).1).2 = .ok () := by
    apply (rewriteEach_eq_ok _).1.mpr
    rw [hlist]
    intro a ha
    obtain ⟨b, hb, rfl⟩ := List.mem_map.mp ha
    rw [hf b (hall b hb)]
    exact hall b hb
  refine Prod.ext ?_ (hagain.trans h.symm)
  rw [(rewriteEach_eq_ok _).2 hagain, hlist, List.map_map]
  exact List.map_congr_left fun a ha => congrArg Prod.fst (hf a (hall a ha))

end Loops

/-! ## §4. The tables of a rebuild. -/

/-- A table of a state. -/
def tableIn (s : RuntimeState) (d t : Str) : Option TableRuntime :=
  (s.databases.find? d).bind fun db => db.tables.find? t

theorem tableIn_eq_some {s : RuntimeState} {d t : Str} {table : TableRuntime} :
    tableIn s d t = some table ↔
      ∃ db, s.databases.find? d = some db ∧ db.tables.find? t = some table :=
  Option.bind_eq_some_iff

theorem keys_indexRows (f : RowData → Str → IndexTree → Result IndexTree)
    (indexes : Dict Str IndexTree) (rows : List RowData) :
    (indexRows f indexes rows).1.keys = indexes.keys := by
  induction rows generalizing indexes with
  | nil => rfl
  | cons row rows ih =>
      have hkeys := keys_updateIndexes (f row) indexes
      rw [indexRows]
      rcases hu : updateIndexes (f row) indexes with ⟨indexes', r⟩
      rw [hu] at hkeys
      cases r with
      | ok u => exact (ih indexes').trans hkeys
      | error e => exact hkeys
      | fault => exact hkeys

theorem mem_keys_emplace {β : Type} {d : Dict Str β} {a n : Str} {b : β} :
    n ∈ (d.emplace a b).keys ↔ n ∈ d.keys ∨ n = a := by
  cases hfind : d.find? a with
  | none =>
      rw [Dict.keys_emplace hfind, List.mem_append, List.mem_singleton]
  | some c =>
      rw [Dict.emplace_of_find? hfind]
      refine (or_iff_left_of_imp fun hn => ?_).symm
      rw [hn]
      exact Dict.mem_keys_iff.mpr ⟨c, hfind⟩

/-- There is a tree for each index of the schema. -/
theorem mem_keys_emptyIndexes {schema : TableSchema} {n : Str} :
    n ∈ (emptyIndexes schema).keys ↔ n ∈ indexedColumns schema := by
  have hfold : ∀ (l : List IndexDefinition) (d : Dict Str IndexTree),
      n ∈ (l.foldl (fun d ix => d.emplace ix.columnName newIndexTree) d).keys ↔
        n ∈ d.keys ∨ n ∈ l.map (·.columnName) := by
    intro l
    induction l with
    | nil => simp
    | cons ix l ih =>
        intro d
        rw [List.foldl_cons, ih, mem_keys_emplace, List.map_cons, List.mem_cons, or_assoc]
  refine (hfold schema.indexes Dict.empty).trans ?_
  exact or_iff_right List.not_mem_nil

theorem rebuildTableIndexes_keys (d : Str) (p : Str × TableRuntime) (n : Str) :
    n ∈ (rebuildTableIndexes d p).1.2.indexes.keys ↔ n ∈ indexedColumns p.2.schema := by
  rw [← mem_keys_emptyIndexes]
  show n ∈ (indexRows _ _ _).1.keys ↔ _
  rw [keys_indexRows]

/-- **The trees of a table are filled from its rows**, where each index names a
column. -/
theorem rebuildTableIndexes_trees {table : TableRuntime}
    (hids : (table.heap.rows.map (·.rowId)).Nodup)
    (htyped : ∀ r ∈ table.heap.rows, WellTyped table.schema r)
    (hcolumns : ∀ n ∈ indexedColumns table.schema, ∃ i, findColumnIndex table.schema n = some i)
    (d t : Str) :
    (rebuildTableIndexes d (t, table)).2 = .ok () ∧
      ∀ n tree, (n, tree) ∈ (rebuildTableIndexes d (t, table)).1.2.indexes.entries →
        TreeOver (encodedKey table.schema n) table.heap.rows tree := by
  have hnew : ∀ n tree, (n, tree) ∈ (emptyIndexes table.schema).entries →
      TreeOver (encodedKey table.schema n) [] tree := by
    intro n tree hmem
    rcases mem_foldl_emplace hmem with hmem | rfl
    · cases hmem
    · exact treeOver_new _
  obtain ⟨indexes, hrun, htrees, -⟩ := indexRows_total
    (P := fun rows n tree => TreeOver (encodedKey table.schema n) rows tree)
    (f := rebuildIndexEntry d t table.schema) table.heap.rows hnew (by
      intro A r B n tree hrows hn hA
      obtain ⟨i, hi⟩ := hcolumns n (mem_keys_emptyIndexes.mp hn)
      obtain ⟨v, c, k, hcv, henc, hkey⟩ := (htyped r (by rw [hrows]; simp)).key hi
      have hfresh : r.rowId ∉ A.map (·.rowId) := by
        rw [hrows, List.map_append, List.map_cons] at hids
        exact fun hmem => (List.nodup_append.mp hids).2.2 _ hmem _ List.mem_cons_self rfl
      obtain ⟨tree', hins, hover⟩ := hA.insert hkey (by simpa using hfresh)
      exact ⟨tree', by simp [rebuildIndexEntry, hi, hcv, henc, hins], by simpa using hover⟩)
  have hres : rebuildTableIndexes d (t, table) = ((t, { table with indexes := indexes }), .ok ()) := by
    unfold rebuildTableIndexes
    dsimp only
    rw [TableHeap.scanAll, hrun]
  rw [hres]
  exact ⟨rfl, fun n tree hmem => by simpa using htrees n tree hmem⟩

/-! ## §5. The rebuild. -/

/-- Each index of a table names a column, and no key occurs twice in it. -/
def Indexed (table : TableRuntime) : Prop :=
  ∀ n ∈ indexedColumns table.schema, (∃ i, findColumnIndex table.schema n = some i) ∧
    (table.heap.rows.map (encodedKey table.schema n)).Nodup

/-- A table has the trees of its schema, each valid and with the keys of the rows
as its entries. -/
structure InStep (table : TableRuntime) : Prop where
  trees : ∀ n, n ∈ table.indexes.keys ↔ n ∈ indexedColumns table.schema
  valid : ∀ n tree, table.indexes.find? n = some tree → tree.Valid
  entries : ∀ n tree, table.indexes.find? n = some tree → ∀ e, e ∈ tree.entries ↔
    ∃ r ∈ table.heap.rows, encodedKey table.schema n r = some e.key ∧ e.rowIds = [r.rowId]

/-- Distinct row ids and well-typed rows, in every table. -/
structure HeapsOk (s : RuntimeState) : Prop where
  distinct : ∀ d t table, tableIn s d t = some table → (table.heap.rows.map (·.rowId)).Nodup
  typed : ∀ d t table, tableIn s d t = some table → ∀ r ∈ table.heap.rows,
    WellTyped table.schema r

theorem rebuildTableIndexes_again (d : Str) (p : Str × TableRuntime) :
    rebuildTableIndexes d (rebuildTableIndexes d p).1 = rebuildTableIndexes d p := rfl

/-- A rebuild of a database does not look at its trees. -/
theorem rebuildDatabaseIndexes_again {p : Str × DatabaseRuntime}
    (h : (rebuildDatabaseIndexes p).2 = .ok ()) :
    rebuildDatabaseIndexes (rebuildDatabaseIndexes p).1 = rebuildDatabaseIndexes p := by
  have hagain := rewriteEach_again (fun q _ => rebuildTableIndexes_again p.1 q) h
  refine Prod.ext (Prod.ext rfl ?_) ?_
  · exact congrArg (DatabaseRuntime.mk p.2.name) (Dict.ext (congrArg Prod.fst hagain))
  · show (rewriteEach (rebuildTableIndexes p.1)
      (rewriteEach (rebuildTableIndexes p.1) p.2.tables.entries).1).2 = _
    rw [hagain]
    rfl

/-- The names of the databases stay as they are. -/
theorem rebuildDatabases_nodup (s : RuntimeState) :
    ((rewriteEach rebuildDatabaseIndexes s.databases.entries).1.map Prod.fst).Nodup := by
  rw [rewriteEach_keys fun _ => rfl]
  exact s.databases.nodup

/-- The loop of a rebuild, before the validation. -/
def rebuildLoop (s : RuntimeState) : RuntimeState × Result Unit :=
  let r := rewriteEach rebuildDatabaseIndexes s.databases.entries
  (⟨⟨r.1, rebuildDatabases_nodup s⟩⟩, r.2)

theorem rebuildRuntimeIndexes_eq (s : RuntimeState) :
    (rebuildRuntimeIndexes s).1 = (rebuildLoop s).1 ∧
      ((rebuildRuntimeIndexes s).2 = .ok () ↔ (rebuildLoop s).2 = .ok () ∧
        validateRuntimeIndexConsistency (rebuildLoop s).1 = .ok ()) := by
  unfold rebuildRuntimeIndexes rebuildLoop
  dsimp only
  cases (rewriteEach rebuildDatabaseIndexes s.databases.entries).2 with
  | ok u => exact ⟨rfl, (and_iff_right rfl).symm⟩
  | error e => exact ⟨rfl, iff_of_false (fun h => by cases h) fun h => by cases h.1⟩
  | fault => exact ⟨rfl, iff_of_false (fun h => by cases h) fun h => by cases h.1⟩

/-- **A rebuild keeps schemas and heaps**, whether it succeeds or not. -/
theorem rebuildLoop_view (s : RuntimeState) : (rebuildLoop s).1.view = s.view := by
  have htable : ∀ (d : Str) (p : Str × TableRuntime),
      ((rebuildTableIndexes d p).1.1, (rebuildTableIndexes d p).1.2.view) = (p.1, p.2.view) :=
    fun _ _ => rfl
  have hdatabase : ∀ p : Str × DatabaseRuntime,
      ((rebuildDatabaseIndexes p).1.1, (rebuildDatabaseIndexes p).1.2.view) = (p.1, p.2.view) := by
    intro p
    refine Prod.ext rfl (Prod.ext rfl (Dict.ext ?_))
    exact rewriteEach_map (g := fun q : Str × TableRuntime => (q.1, q.2.view)) (htable p.1) _
  apply Dict.ext
  exact rewriteEach_map (g := fun q : Str × DatabaseRuntime => (q.1, q.2.view)) hdatabase _

/-- The tables of a rebuild that got through are the rebuilt tables. -/
theorem tableIn_rebuildLoop {s : RuntimeState} (h : (rebuildLoop s).2 = .ok ()) (d t : Str) :
    tableIn (rebuildLoop s).1 d t
      = (tableIn s d t).map fun table => (rebuildTableIndexes d (t, table)).1.2 := by
  have hdatabases : (rebuildLoop s).1.databases
      = s.databases.mapVals fun n db => (rebuildDatabaseIndexes (n, db)).1.2 :=
    Dict.ext ((rewriteEach_eq_ok _).2 h)
  have htables : ∀ db, s.databases.find? d = some db →
      (rebuildDatabaseIndexes (d, db)).1.2.tables
        = db.tables.mapVals fun n table => (rebuildTableIndexes d (n, table)).1.2 := by
    intro db hdb
    have hok := (rewriteEach_eq_ok _).1.mp h _ (Dict.mem_entries_iff.mpr hdb)
    exact Dict.ext ((rewriteEach_eq_ok _).2 hok)
  unfold tableIn
  rw [hdatabases, Dict.find?_mapVals]
  cases hdb : s.databases.find? d with
  | none => rfl
  | some db =>
      rw [Option.map_some, Option.bind_some, Option.bind_some, htables db hdb, Dict.find?_mapVals]

/-- The loop gets through where each table does. -/
theorem rebuildLoop_eq_ok {s : RuntimeState}
    (h : ∀ d t table, tableIn s d t = some table → (rebuildTableIndexes d (t, table)).2 = .ok ()) :
    (rebuildLoop s).2 = .ok () := by
  apply (rewriteEach_eq_ok _).1.mpr
  rintro ⟨d, db⟩ hdb
  apply (rewriteEach_eq_ok _).1.mpr
  rintro ⟨t, table⟩ htable
  exact h d t table (tableIn_eq_some.mpr
    ⟨db, Dict.mem_entries_iff.mp hdb, Dict.mem_entries_iff.mp htable⟩)

/-- `CHECK INDEX` is the check of each index of each table. -/
theorem validate_eq_ok {s : RuntimeState} :
    validateRuntimeIndexConsistency s = .ok () ↔ ∀ d t table, tableIn s d t = some table →
      ∀ n tree, table.indexes.find? n = some tree → validateIndex d t table n tree = .ok () := by
  unfold validateRuntimeIndexConsistency
  constructor
  · intro h d t table htable n tree htree
    obtain ⟨db, hdb, hin⟩ := tableIn_eq_some.mp htable
    have hd := Result.forEach_eq_ok.mp h (d, db) (Dict.mem_entries_iff.mpr hdb)
    have ht := Result.forEach_eq_ok.mp hd (t, table) (Dict.mem_entries_iff.mpr hin)
    exact Result.forEach_eq_ok.mp ht (n, tree) (Dict.mem_entries_iff.mpr htree)
  · intro h
    refine Result.forEach_eq_ok.mpr ?_
    rintro ⟨d, db⟩ hdb
    refine Result.forEach_eq_ok.mpr ?_
    rintro ⟨t, table⟩ hin
    refine Result.forEach_eq_ok.mpr ?_
    rintro ⟨n, tree⟩ htree
    have htable := tableIn_eq_some.mpr
      ⟨db, Dict.mem_entries_iff.mp hdb, Dict.mem_entries_iff.mp hin⟩
    exact h d t table htable n tree (Dict.mem_entries_iff.mp htree)

/-- An index that passes the check is that of a column without a key twice. -/
theorem indexed_of_validateIndex {d t n : Str} {table : TableRuntime} {tree : IndexTree}
    (htyped : ∀ r ∈ table.heap.rows, WellTyped table.schema r)
    (h : validateIndex d t table n tree = .ok ()) :
    ∃ i, findColumnIndex table.schema n = some i ∧
      (table.heap.rows.map (encodedKey table.schema n)).Nodup ∧
      ∀ r ∈ table.heap.rows, ∀ k, encodedKey table.schema n r = some k →
        tree.find k = some [r.rowId] := by
  unfold validateIndex at h
  dsimp only at h
  split at h
  · cases h
  · split at h
    · cases h
    · rename_i i hi
      obtain ⟨hnodup, hfind⟩ := (validateIndexRows_eq_ok hi htyped []).mp h
      exact ⟨i, hi, hnodup, fun r hr k hk => (hfind r hr k hk).2⟩

/-- A tree over rows without a key twice passes the check. -/
theorem TreeOver.validates {d t n : Str} {table : TableRuntime} {tree : IndexTree}
    (h : TreeOver (encodedKey table.schema n) table.heap.rows tree)
    (htyped : ∀ r ∈ table.heap.rows, WellTyped table.schema r) {i : Nat}
    (hi : findColumnIndex table.schema n = some i)
    (hnodup : (table.heap.rows.map (encodedKey table.schema n)).Nodup) :
    validateIndex d t table n tree = .ok () := by
  have hvalid := h.valid.validates (by rw [h.order]; decide)
  unfold validateIndex
  rw [hvalid]
  simp only [Bool.not_true, Bool.false_eq_true, if_false, hi]
  apply (validateIndexRows_eq_ok hi htyped []).mpr
  refine ⟨hnodup, fun r hr k hk => ⟨List.not_mem_nil, ?_⟩⟩
  rw [h.find, idsOf_eq_singleton hnodup hr hk]

section Rebuild

variable {s : RuntimeState}

/-- **Where every index names a column and holds no key twice, a rebuild
succeeds**, and every table is in step. -/
theorem rebuild_of_indexed (hs : HeapsOk s)
    (h : ∀ d t table, tableIn s d t = some table → Indexed table) :
    (rebuildLoop s).2 = .ok () ∧ validateRuntimeIndexConsistency (rebuildLoop s).1 = .ok () ∧
      ∀ d t table, tableIn (rebuildLoop s).1 d t = some table → InStep table := by
  have htrees : ∀ d t table, tableIn s d t = some table → _ := fun d t table htable =>
    rebuildTableIndexes_trees (hs.distinct d t table htable) (hs.typed d t table htable)
      (fun n hn => (h d t table htable n hn).1) d t
  have hloop : (rebuildLoop s).2 = .ok () :=
    rebuildLoop_eq_ok fun d t table htable => (htrees d t table htable).1
  refine ⟨hloop, validate_eq_ok.mpr ?_, ?_⟩
  · intro d t table' htable' n tree htree
    rw [tableIn_rebuildLoop hloop] at htable'
    obtain ⟨table, htable, rfl⟩ := Option.map_eq_some_iff.mp htable'
    have hover : TreeOver (encodedKey (rebuildTableIndexes d (t, table)).1.2.schema n)
        (rebuildTableIndexes d (t, table)).1.2.heap.rows tree :=
      (htrees d t table htable).2 n tree (Dict.mem_entries_iff.mpr htree)
    have hn := (rebuildTableIndexes_keys d (t, table) n).mp (Dict.mem_keys_iff.mpr ⟨tree, htree⟩)
    obtain ⟨⟨i, hi⟩, hnodup⟩ := h d t table htable n hn
    exact hover.validates (hs.typed d t table htable) hi hnodup
  · intro d t table' htable'
    rw [tableIn_rebuildLoop hloop] at htable'
    obtain ⟨table, htable, rfl⟩ := Option.map_eq_some_iff.mp htable'
    have hover : ∀ n tree, (rebuildTableIndexes d (t, table)).1.2.indexes.find? n = some tree →
        TreeOver (encodedKey table.schema n) table.heap.rows tree ∧
          (table.heap.rows.map (encodedKey table.schema n)).Nodup := by
      intro n tree htree
      have hn := (rebuildTableIndexes_keys d (t, table) n).mp (Dict.mem_keys_iff.mpr ⟨tree, htree⟩)
      exact ⟨(htrees d t table htable).2 n tree (Dict.mem_entries_iff.mpr htree),
        (h d t table htable n hn).2⟩
    constructor
    · exact rebuildTableIndexes_keys d (t, table)
    · exact fun n tree htree => (hover n tree htree).1.valid
    · exact fun n tree htree => (hover n tree htree).1.mem_entries (hover n tree htree).2

/-- **A rebuild that succeeds** has found distinct keys in columns that exist. -/
theorem indexed_of_rebuild (hs : HeapsOk s) (hloop : (rebuildLoop s).2 = .ok ())
    (hvalid : validateRuntimeIndexConsistency (rebuildLoop s).1 = .ok ()) (d t : Str)
    (table : TableRuntime) (htable : tableIn s d t = some table) : Indexed table := by
  intro n hn
  obtain ⟨tree, htree⟩ :=
    Dict.mem_keys_iff.mp ((rebuildTableIndexes_keys d (t, table) n).mpr hn)
  have hin : tableIn (rebuildLoop s).1 d t = some (rebuildTableIndexes d (t, table)).1.2 := by
    rw [tableIn_rebuildLoop hloop, htable]
    rfl
  obtain ⟨i, hi, hnodup, -⟩ := indexed_of_validateIndex (hs.typed d t table htable)
    (validate_eq_ok.mp hvalid d t _ hin n tree htree)
  exact ⟨⟨i, hi⟩, hnodup⟩

end Rebuild

/-- **`REBUILD INDEX` repairs.**  For distinct row ids and well-typed rows, and
any trees: schemas and heaps stay; it succeeds exactly where each index of a
schema names a column and no key occurs twice in it; then every table has its
trees with the entries of its heap, and a second rebuild changes nothing. -/
theorem rebuild_repairs {s : RuntimeState} (hs : HeapsOk s) :
    (rebuildRuntimeIndexes s).1.view = s.view ∧
      ((rebuildRuntimeIndexes s).2 = .ok () ↔
        ∀ d t table, tableIn s d t = some table → Indexed table) ∧
      ((rebuildRuntimeIndexes s).2 = .ok () →
        (∀ d t table, tableIn (rebuildRuntimeIndexes s).1 d t = some table → InStep table) ∧
          rebuildRuntimeIndexes (rebuildRuntimeIndexes s).1 = rebuildRuntimeIndexes s) := by
  obtain ⟨hstate, hok⟩ := rebuildRuntimeIndexes_eq s
  rw [hstate, hok]
  refine ⟨rebuildLoop_view s, ⟨fun h => ?_, fun h => ?_⟩, fun h => ?_⟩
  · exact indexed_of_rebuild hs h.1 h.2
  · exact ⟨(rebuild_of_indexed hs h).1, (rebuild_of_indexed hs h).2.1⟩
  · have hindexed := indexed_of_rebuild hs h.1 h.2
    refine ⟨(rebuild_of_indexed hs hindexed).2.2, ?_⟩
    have hagain : rebuildLoop (rebuildLoop s).1 = rebuildLoop s := by
      have hrun := rewriteEach_again (fun _ hp => rebuildDatabaseIndexes_again hp) h.1
      refine Prod.ext ?_ ?_
      · exact congrArg RuntimeState.mk (Dict.ext (congrArg Prod.fst hrun))
      · show (rewriteEach _ (rewriteEach _ _).1).2 = (rewriteEach _ _).2
        rw [hrun]
    have hsecond := rebuildRuntimeIndexes_eq (rebuildLoop s).1
    rw [hagain] at hsecond
    exact Prod.ext (hsecond.1.trans hstate.symm) ((hsecond.2.mpr h).trans (hok.mpr h).symm)

/-! ## §6. A table without its trees. -/

/-- Two rows, the key of one of them NULL, and no tree. -/
def treelessTable : TableRuntime where
  schema := ⟨str "d", str "t", [⟨str "k", .int64, .indexed, none⟩],
    [indexDefinitionFor (str "t") (str "k")]⟩
  heap := heapOf [⟨some 0, [.int 1]⟩, ⟨some 1, [.null]⟩]
  indexes := Dict.empty

def treelessState : RuntimeState :=
  ⟨Dict.empty.emplace (str "d") ⟨str "d", Dict.empty.emplace (str "t") treelessTable⟩⟩

theorem tableIn_treelessState {d t : Str} {table : TableRuntime}
    (h : tableIn treelessState d t = some table) : table = treelessTable := by
  obtain ⟨db, hdb, hin⟩ := tableIn_eq_some.mp h
  have hd := List.mem_singleton.mp (Dict.mem_entries_iff.mpr hdb)
  cases hd
  cases List.mem_singleton.mp (Dict.mem_entries_iff.mpr hin)
  rfl

theorem heapsOk_treelessState : HeapsOk treelessState := by
  constructor
  · intro d t table htable
    rw [tableIn_treelessState htable]
    decide
  · intro d t table htable row hrow
    rw [tableIn_treelessState htable] at hrow ⊢
    have hrows : row ∈ [(⟨some 0, [.int 1]⟩ : RowData), ⟨some 1, [.null]⟩] := hrow
    have hfirst : ∀ (i : Nat) (v w : Value), [w][i]? = some v → v = w := by
      intro i v w hv
      exact List.mem_singleton.mp (List.mem_of_getElem? hv)
    rcases List.mem_cons.mp hrows with rfl | hrows
    · refine ⟨rfl, fun i v c hv hc => .inr ?_⟩
      rw [hfirst i v _ hv, List.mem_singleton.mp (List.mem_of_getElem? hc)]
      rfl
    · cases List.mem_singleton.mp hrows
      refine ⟨rfl, fun i v c hv _ => .inl ?_⟩
      rw [hfirst i v _ hv]
      rfl

/-- Its rebuild succeeds, and so does a second one, with the same result. -/
theorem rebuild_repairs_treeless :
    (rebuildRuntimeIndexes treelessState).2 = .ok () ∧
      rebuildRuntimeIndexes (rebuildRuntimeIndexes treelessState).1
        = rebuildRuntimeIndexes treelessState := by
  have hrun : (rebuildRuntimeIndexes treelessState).2 = .ok () := by
    apply (rebuild_repairs heapsOk_treelessState).2.1.mpr
    intro d t table htable
    rw [tableIn_treelessState htable]
    intro n hn
    cases List.mem_singleton.mp hn
    exact ⟨⟨0, by decide⟩, by decide⟩
  exact ⟨hrun, ((rebuild_repairs heapsOk_treelessState).2.2 hrun).2⟩

end CustomDbms.Core
