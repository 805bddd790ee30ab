/-
  CustomDbms.Core.IndexConsistency
  ────────────────────────────────
  **WHAT `CHECK INDEX` SEES.**

  The loops of `ValidateRuntimeIndexConsistency` run over the trees that exist
  and, for each of them, over the rows of the heap.  So a tree passes where it
  *covers* the heap (`Covers`): it is valid, names a column, and finds each row
  alone under its key.  Two things are never looked at, a column whose tree is
  missing and an entry of no row, and one thing is looked at in vain, the tree
  of a column that is not INDEXED.

    • `validateIndex_eq_ok` — the check of one tree is `Covers`;
    • `exactIndex_iff` — an exact index covers the heap and has no stale entry;
    • `check_exact_iff` — on which states the answer of `CHECK INDEX` is right.
-/
import CustomDbms.Core.IndexRebuild
import CustomDbms.Index.CheckedTrees

namespace CustomDbms.Core

open CustomDbms.Common CustomDbms.Catalog CustomDbms.Index CustomDbms.Lib CustomDbms.Storage

/-! ## §1. The entries of a tree as pairs. -/

/-- The pairs of key and row id in a tree. -/
def entryPairs (tree : IndexTree) : List (Str × RowId) :=
  tree.entries.flatMap fun e => e.rowIds.map fun id => (e.key, id)

theorem mem_entryPairs {tree : IndexTree} {k : Str} {id : RowId} :
    (k, id) ∈ entryPairs tree ↔ ∃ e ∈ tree.entries, e.key = k ∧ id ∈ e.rowIds := by
  unfold entryPairs
  rw [List.mem_flatMap]
  constructor
  · rintro ⟨e, he, hid⟩
    obtain ⟨id', hid', heq⟩ := List.mem_map.mp hid
    obtain ⟨hk, rfl⟩ := Prod.mk.injEq .. ▸ heq
    exact ⟨e, he, hk, hid'⟩
  · rintro ⟨e, he, hk, hid⟩
    exact ⟨e, he, List.mem_map.mpr ⟨id, hid, by rw [hk]⟩⟩

/-- Where keys are distinct among the pairs, an entry has at most one row. -/
theorem rowIds_of_distinct {tree : IndexTree} (h : ((entryPairs tree).map Prod.fst).Nodup)
    {e : IndexEntry Str RowId} (he : e ∈ tree.entries) {id : RowId} (hid : id ∈ e.rowIds) :
    e.rowIds = [id] := by
  obtain ⟨A, B, hAB⟩ := List.append_of_mem he
  have hsub : (e.rowIds.map fun _ => e.key).Nodup := by
    refine h.sublist ?_
    rw [entryPairs, hAB, List.flatMap_append, List.flatMap_cons, List.map_append, List.map_append,
      List.map_map]
    exact (List.sublist_append_left _ _).trans (List.sublist_append_right _ _)
  cases hids : e.rowIds with
  | nil =>
      rw [hids] at hid
      cases hid
  | cons x ids =>
      rw [hids, List.map_cons, List.nodup_cons] at hsub
      cases ids with
      | nil =>
          rw [hids] at hid
          rw [List.mem_singleton.mp hid]
      | cons y ids => exact absurd (List.mem_cons_self ..) hsub.1

/-- Where each entry has one row, the keys of the pairs are those of the entries. -/
theorem entryPairs_keys {es : List (IndexEntry Str RowId)}
    (h : ∀ e ∈ es, ∃ id, e.rowIds = [id]) :
    (es.flatMap fun e => e.rowIds.map fun id => (e.key, id)).map Prod.fst = es.map (·.key) := by
  induction es with
  | nil => rfl
  | cons e es ih =>
      obtain ⟨id, hid⟩ := h e List.mem_cons_self
      rw [List.flatMap_cons, List.map_append, ih fun x hx => h x (List.mem_cons_of_mem _ hx), hid]
      rfl

/-! ## §2. One index. -/

section Index

variable {table : TableRuntime} {n : Str} {tree : IndexTree}

/-- **What the check of a tree looks at**: the tree, and the rows of the heap. -/
structure Covers (table : TableRuntime) (n : Str) (tree : IndexTree) : Prop where
  valid : tree.validateCanonicalInvariants = true
  column : ∃ i, findColumnIndex table.schema n = some i
  distinct : (table.heap.rows.map (encodedKey table.schema n)).Nodup
  finds : ∀ r ∈ table.heap.rows, ∀ k, encodedKey table.schema n r = some k →
    tree.find k = some [r.rowId]

/-- A pair of the tree that belongs to no row of the heap. -/
def StaleEntry (table : TableRuntime) (n : Str) (tree : IndexTree) : Prop :=
  ∃ k id, (k, id) ∈ entryPairs tree ∧
    ¬∃ r ∈ table.heap.rows, encodedKey table.schema n r = some k ∧ r.rowId = id

/-- **An exact index**: a valid tree whose pairs are the keys of the rows with
their row ids, no key twice. -/
structure ExactIndex (table : TableRuntime) (n : Str) (tree : IndexTree) : Prop where
  valid : tree.validateCanonicalInvariants = true
  pairs : ∀ k id, (k, id) ∈ entryPairs tree ↔
    ∃ r ∈ table.heap.rows, encodedKey table.schema n r = some k ∧ r.rowId = id
  distinct : ((entryPairs tree).map Prod.fst).Nodup ∧
    (table.heap.rows.map (encodedKey table.schema n)).Nodup

/-- **The check of one index** accepts the trees that cover the heap. -/
theorem validateIndex_eq_ok {d t : Str}
    (htyped : ∀ r ∈ table.heap.rows, WellTyped table.schema r) :
    validateIndex d t table n tree = .ok () ↔ Covers table n tree := by
  constructor
  · intro h
    have hvalid : tree.validateCanonicalInvariants = true := by
      by_contra hno
      unfold validateIndex at h
      rw [Bool.not_eq_true] at hno
      rw [hno] at h
      cases h
    obtain ⟨i, hi, hnodup, hfinds⟩ := indexed_of_validateIndex htyped h
    exact ⟨hvalid, ⟨i, hi⟩, hnodup, hfinds⟩
  · intro h
    obtain ⟨i, hi⟩ := h.column
    unfold validateIndex
    rw [h.valid]
    simp only [Bool.not_true, Bool.false_eq_true, if_false, hi]
    apply (validateIndexRows_eq_ok hi htyped []).mpr
    exact ⟨h.distinct, fun r hr k hk => ⟨List.not_mem_nil, h.finds r hr k hk⟩⟩

/-- In a tree that passes, the entries are the keys that `Find` answers. -/
theorem mem_entries_iff_find (hvalid : tree.validateCanonicalInvariants = true)
    (e : IndexEntry Str RowId) :
    e ∈ tree.entries ↔ tree.find e.key = some e.rowIds ∧ e.rowIds ≠ [] := by
  have hrows := (BStarPlusTree.ordered_of_validates hvalid).2
  rw [mem_iff_rowsOf (BStarPlusTree.sorted_of_validates hvalid) hrows,
    BStarPlusTree.find_of_validates hvalid, Option.some_inj, eq_comm]

theorem Covers.mem_entries (h : Covers table n tree) {r : RowData} (hr : r ∈ table.heap.rows)
    {k : Str} (hk : encodedKey table.schema n r = some k) :
    (⟨k, [r.rowId]⟩ : IndexEntry Str RowId) ∈ tree.entries :=
  (mem_entries_iff_find h.valid _).mpr ⟨h.finds r hr k hk, List.cons_ne_nil _ _⟩

/-- In a tree that covers the heap and has no stale entry, an entry is that of one
row. -/
theorem Covers.entry (h : Covers table n tree) (hstale : ¬StaleEntry table n tree)
    {e : IndexEntry Str RowId} (he : e ∈ tree.entries) : ∃ id, e.rowIds = [id] := by
  obtain ⟨hfind, hne⟩ := (mem_entries_iff_find h.valid e).mp he
  obtain ⟨id, hid⟩ := List.exists_mem_of_ne_nil _ hne
  by_contra hno
  refine hstale ⟨e.key, id, mem_entryPairs.mpr ⟨e, he, rfl, hid⟩, ?_⟩
  rintro ⟨r, hr, hk, -⟩
  have hsingle := h.finds r hr e.key hk
  rw [hfind] at hsingle
  exact hno ⟨r.rowId, Option.some.inj hsingle⟩

/-- **An exact index** is one that covers the heap and has no stale entry. -/
theorem exactIndex_iff (hcolumn : ∃ i, findColumnIndex table.schema n = some i) :
    ExactIndex table n tree ↔ Covers table n tree ∧ ¬StaleEntry table n tree := by
  constructor
  · intro h
    refine ⟨⟨h.valid, hcolumn, h.distinct.2, fun r hr k hk => ?_⟩, ?_⟩
    · obtain ⟨e, he, rfl, hid⟩ := mem_entryPairs.mp ((h.pairs k r.rowId).mpr ⟨r, hr, hk, rfl⟩)
      rw [((mem_entries_iff_find h.valid e).mp he).1, rowIds_of_distinct h.distinct.1 he hid]
    · rintro ⟨k, id, hmem, hno⟩
      exact hno ((h.pairs k id).mp hmem)
  · rintro ⟨h, hstale⟩
    refine ⟨h.valid, fun k id => ⟨fun hmem => ?_, ?_⟩, ?_, h.distinct⟩
    · by_contra hno
      exact hstale ⟨k, id, hmem, hno⟩
    · rintro ⟨r, hr, hk, rfl⟩
      exact mem_entryPairs.mpr ⟨_, h.mem_entries hr hk, rfl, List.mem_singleton_self _⟩
    · rw [entryPairs, entryPairs_keys fun e he => h.entry hstale he]
      have hsorted := (sortedIn_iff_keys.mp (BStarPlusTree.sorted_of_validates h.valid)).1
      exact hsorted.imp fun hlt => ne_of_lt hlt

end Index

/-! ## §3. The whole state. -/

/-- `n` is the name of an INDEXED column. -/
def IndexedColumn (table : TableRuntime) (n : Str) : Prop :=
  ∃ c ∈ table.schema.columns, c.name = n ∧ c.constraint = .indexed

theorem IndexedColumn.find {table : TableRuntime} {n : Str} (h : IndexedColumn table n) :
    ∃ i, findColumnIndex table.schema n = some i := by
  obtain ⟨c, hc, rfl, -⟩ := h
  apply Option.isSome_iff_exists.mp
  rw [findColumnIndex, List.findIdx?_isSome, List.any_eq_true]
  exact ⟨c, hc, decide_eq_true rfl⟩

/-- Something holds of every table of a state. -/
def OnEveryTable (s : RuntimeState) (P : TableRuntime → Prop) : Prop :=
  ∀ d t table, tableIn s d t = some table → P table

/-- One well-typed value for each column, in every row. -/
def RowsTyped (s : RuntimeState) : Prop :=
  OnEveryTable s fun table => ∀ r ∈ table.heap.rows, WellTyped table.schema r

/-- Each INDEXED column has an exact index. -/
def ExactIndexes (s : RuntimeState) : Prop :=
  OnEveryTable s fun table => ∀ n, IndexedColumn table n →
    ∃ tree, table.indexes.find? n = some tree ∧ ExactIndex table n tree

/-- The trees there are for INDEXED columns cover the heap. -/
def IndexedCovered (s : RuntimeState) : Prop :=
  OnEveryTable s fun table => ∀ n tree, table.indexes.find? n = some tree → IndexedColumn table n →
    Covers table n tree

/-- So do the trees kept under other names. -/
def OthersCovered (s : RuntimeState) : Prop :=
  OnEveryTable s fun table => ∀ n tree, table.indexes.find? n = some tree → ¬IndexedColumn table n →
    Covers table n tree

/-- No INDEXED column is without a tree, and none of its trees has a stale entry. -/
def NoneMissingOrStale (s : RuntimeState) : Prop :=
  OnEveryTable s fun table => ∀ n, IndexedColumn table n →
    ∃ tree, table.indexes.find? n = some tree ∧ ¬StaleEntry table n tree

section State

variable {s : RuntimeState}

/-- `CHECK INDEX` accepts where every tree covers the heap, INDEXED or not. -/
theorem check_eq_ok (hrows : RowsTyped s) :
    validateRuntimeIndexConsistency s = .ok () ↔ IndexedCovered s ∧ OthersCovered s := by
  rw [validate_eq_ok]
  constructor
  · intro h
    have hall : ∀ d t table, tableIn s d t = some table → ∀ n tree,
        table.indexes.find? n = some tree → Covers table n tree := fun d t table htable n tree
      htree => (validateIndex_eq_ok (hrows d t table htable)).mp (h d t table htable n tree htree)
    exact ⟨fun d t table htable n tree htree _ => hall d t table htable n tree htree,
      fun d t table htable n tree htree _ => hall d t table htable n tree htree⟩
  · rintro ⟨hindexed, hothers⟩ d t table htable n tree htree
    apply (validateIndex_eq_ok (hrows d t table htable)).mpr
    by_cases hn : IndexedColumn table n
    · exact hindexed d t table htable n tree htree hn
    · exact hothers d t table htable n tree htree hn

/-- The indexes are exact where trees exist, cover the heap and are not stale. -/
theorem exactIndexes_iff : ExactIndexes s ↔ IndexedCovered s ∧ NoneMissingOrStale s := by
  constructor
  · intro h
    constructor
    · intro d t table htable n tree htree hn
      obtain ⟨tree', htree', hexact⟩ := h d t table htable n hn
      obtain rfl := Option.some.inj (htree.symm.trans htree')
      exact ((exactIndex_iff hn.find).mp hexact).1
    · intro d t table htable n hn
      obtain ⟨tree, htree, hexact⟩ := h d t table htable n hn
      exact ⟨tree, htree, ((exactIndex_iff hn.find).mp hexact).2⟩
  · rintro ⟨hcovered, hthere⟩ d t table htable n hn
    obtain ⟨tree, htree, hstale⟩ := hthere d t table htable n hn
    have hcov := hcovered d t table htable n tree htree hn
    exact ⟨tree, htree, (exactIndex_iff hn.find).mpr ⟨hcov, hstale⟩⟩

/-- **When `CHECK INDEX` answers rightly.**  Where a tree of an INDEXED column does
not cover the heap, it fails and should.  Elsewhere it is right exactly where
the trees under other names cover the heap and no tree is missing or stale, or
where neither is so. -/
theorem check_exact_iff (hrows : RowsTyped s) :
    (validateRuntimeIndexConsistency s = .ok () ↔ ExactIndexes s) ↔
      (IndexedCovered s → (OthersCovered s ↔ NoneMissingOrStale s)) := by
  rw [check_eq_ok hrows, exactIndexes_iff]
  constructor
  · intro h hcovered
    rwa [and_iff_right hcovered, and_iff_right hcovered] at h
  · intro h
    exact and_congr_right h

/-- A table in step with its heap has no stale entry. -/
theorem InStep.not_stale {table : TableRuntime} (h : InStep table) {n : Str} {tree : IndexTree}
    (htree : table.indexes.find? n = some tree) : ¬StaleEntry table n tree := by
  rintro ⟨k, id, hmem, hno⟩
  obtain ⟨e, he, rfl, hid⟩ := mem_entryPairs.mp hmem
  obtain ⟨r, hr, hk, hids⟩ := (h.entries n tree htree e).mp he
  rw [hids] at hid
  exact hno ⟨r, hr, hk, (List.mem_singleton.mp hid).symm⟩

/-- A rebuild does not touch rows. -/
theorem RowsTyped.rebuild (hrows : RowsTyped s) (hloop : (rebuildLoop s).2 = .ok ()) :
    RowsTyped (rebuildLoop s).1 := by
  intro d t table' htable'
  rw [tableIn_rebuildLoop hloop] at htable'
  obtain ⟨table, htable, rfl⟩ := Option.map_eq_some_iff.mp htable'
  exact hrows d t table htable

end State

/-! ## §4. A missing tree. -/

/-- A missing tree goes unnoticed: the INDEXED column of `treelessState` has none. -/
theorem check_misses_missing_tree :
    ¬∀ s : RuntimeState, RowsTyped s →
      (validateRuntimeIndexConsistency s = .ok () ↔ ExactIndexes s) := by
  intro hclaim
  have hok : validateRuntimeIndexConsistency treelessState = .ok () := rfl
  have hexact := (hclaim treelessState heapsOk_treelessState.typed).mp hok
  obtain ⟨tree, htree, -⟩ := hexact (str "d") (str "t") treelessTable rfl (str "k")
    ⟨_, List.mem_singleton_self _, rfl, rfl⟩
  cases htree

/-- After a rebuild the answer is right, and it is yes. -/
theorem check_exact_rebuilt : ExactIndexes (rebuildLoop treelessState).1 := by
  have hindexed : ∀ d t table, tableIn treelessState d t = some table → Indexed table := by
    intro d t table htable n hn
    rw [tableIn_treelessState htable] at hn ⊢
    cases List.mem_singleton.mp hn
    exact ⟨⟨0, by decide⟩, by decide⟩
  obtain ⟨hloop, hok, hstep⟩ := rebuild_of_indexed heapsOk_treelessState hindexed
  have hrows : RowsTyped (rebuildLoop treelessState).1 :=
    RowsTyped.rebuild heapsOk_treelessState.typed hloop
  have hthere : NoneMissingOrStale (rebuildLoop treelessState).1 := by
    intro d t table htable n hn
    have hstepTable := hstep d t table htable
    have hmem : n ∈ table.indexes.keys := by
      apply (hstepTable.trees n).mpr
      rw [tableIn_rebuildLoop hloop] at htable
      obtain ⟨table₀, htable₀, rfl⟩ := Option.map_eq_some_iff.mp htable
      obtain rfl := tableIn_treelessState htable₀
      obtain ⟨c, hc, rfl, -⟩ := hn
      cases List.mem_singleton.mp hc
      exact List.mem_singleton_self _
    obtain ⟨tree, htree⟩ := Dict.mem_keys_iff.mp hmem
    exact ⟨tree, htree, hstepTable.not_stale htree⟩
  have hothers := ((check_eq_ok hrows).mp hok).2
  exact ((check_exact_iff hrows).mpr fun _ => iff_of_true hothers hthere).mp hok

end CustomDbms.Core
