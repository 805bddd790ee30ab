/-
  CustomDbms.Core.StateInvariant
  ──────────────────────────────
  **THE STATE INVARIANT.**

  `StateOk` says that every table of a runtime state has heap and indexes in
  step.  The view of a state is the state without its index trees; under the
  invariant the trees add nothing to it.  Clones and rebuilds keep both, and
  `ValidateRuntimeIndexConsistency` succeeds.
-/
import CustomDbms.Core.TableInvariant

namespace CustomDbms.Core

open CustomDbms.Common CustomDbms.Catalog CustomDbms.Index CustomDbms.Lib CustomDbms.Storage

/-! ## §1. Views. -/

/-- A table without its indexes. -/
structure TableView where
  schema : TableSchema
  heap : TableHeap
  deriving DecidableEq

/-- The view of a table. -/
def TableRuntime.view (table : TableRuntime) : TableView := ⟨table.schema, table.heap⟩

/-- The view of a database: its name and its tables. -/
def DatabaseRuntime.view (d : DatabaseRuntime) : Str × Dict Str TableView :=
  (d.name, d.tables.mapVals fun _ table => table.view)

/-- The view of a state. -/
def RuntimeState.view (s : RuntimeState) : Dict Str (Str × Dict Str TableView) :=
  s.databases.mapVals fun _ d => d.view

/-- A table in a view. -/
def viewTable (w : Dict Str (Str × Dict Str TableView)) (d t : Str) : Option TableView :=
  (w.find? d).bind fun p => p.2.find? t

theorem viewTable_view {s : RuntimeState} {d t : Str} {db : DatabaseRuntime}
    {table : TableRuntime} (hdb : s.databases.find? d = some db)
    (ht : db.tables.find? t = some table) : viewTable s.view d t = some table.view := by
  simp [viewTable, RuntimeState.view, DatabaseRuntime.view, hdb, ht]

/-! ## §2. The invariant. -/

/-- Every table of the database is in step, under its own name. -/
structure DatabaseOk (databaseName : Str) (d : DatabaseRuntime) : Prop where
  name : d.name = databaseName
  tables : ∀ t table, d.tables.find? t = some table → TableOk databaseName t table

/-- **The state invariant.** -/
def StateOk (s : RuntimeState) : Prop :=
  ∀ n d, s.databases.find? n = some d → DatabaseOk n d

theorem stateOk_empty : StateOk RuntimeState.empty := by
  intro n d h
  cases h

/-- One database rewritten. -/
theorem stateOk_modify {s : RuntimeState} (h : StateOk s) {n : Str}
    {f : DatabaseRuntime → DatabaseRuntime}
    (hf : ∀ d, s.databases.find? n = some d → DatabaseOk n (f d)) :
    StateOk ⟨s.databases.modify n f⟩ := by
  intro m d hd
  rw [Dict.find?_modify] at hd
  split at hd
  · rename_i hm
    subst hm
    obtain ⟨d0, hd0, rfl⟩ := Option.map_eq_some_iff.mp hd
    exact hf d0 hd0
  · exact h m d hd

/-! ## §3. Clones. -/

theorem cloneDatabaseRuntime_ok {n : Str} {d : DatabaseRuntime} (h : DatabaseOk n d) :
    ∃ d', cloneDatabaseRuntime d = .ok d' ∧ DatabaseOk n d' ∧ d'.view = d.view := by
  obtain ⟨ts, hts, hP⟩ := Result.mapList_forall₂
    (f := fun p : Str × TableRuntime => cloneTableRuntime p.2)
    (P := fun p table' => TableOk n p.1 table' ∧ table'.view = p.2.view) d.tables.entries (by
      rintro ⟨t, table⟩ hmem
      obtain ⟨table', hrun, hok, hs, hh⟩ :=
        cloneTableRuntime_ok (h.tables t table (Dict.mem_entries_iff.mp hmem))
      exact ⟨table', hrun, hok, by rw [TableRuntime.view, hs, hh]; rfl⟩)
  refine ⟨⟨d.name, d.tables.withVals ts⟩, ?_, ⟨h.name, ?_⟩, ?_⟩
  · simp [cloneDatabaseRuntime, hts]
  · intro t table' hfind
    obtain ⟨table, -, hok, -⟩ := Dict.mem_withVals hP (Dict.mem_entries_iff.mpr hfind)
    exact hok
  · show (d.name, _) = (d.name, _)
    rw [Dict.mapVals_withVals (f := fun _ table => table.view) (hP.imp fun _ _ hp => hp.2)]

/-- **A clone of a state satisfies the invariant and has the same view.** -/
theorem cloneRuntimeState_ok {s : RuntimeState} (h : StateOk s) :
    ∃ s', cloneRuntimeState s = .ok s' ∧ StateOk s' ∧ s'.view = s.view := by
  obtain ⟨ds, hds, hP⟩ := Result.mapList_forall₂
    (f := fun p : Str × DatabaseRuntime => cloneDatabaseRuntime p.2)
    (P := fun p d' => DatabaseOk p.1 d' ∧ d'.view = p.2.view) s.databases.entries (by
      rintro ⟨n, d⟩ hmem
      exact cloneDatabaseRuntime_ok (h n d (Dict.mem_entries_iff.mp hmem)))
  refine ⟨⟨s.databases.withVals ds⟩, by simp [cloneRuntimeState, hds], ?_, ?_⟩
  · intro n d' hfind
    obtain ⟨d, -, hok, -⟩ := Dict.mem_withVals hP (Dict.mem_entries_iff.mpr hfind)
    exact hok
  · exact Dict.mapVals_withVals (hP.imp fun _ _ hp => hp.2)

/-! ## §4. `CHECK INDEX`. -/

theorem validateIndexRows_ok {path : Str} {schema : TableSchema} {n : Str} {tree : IndexTree}
    {i : Nat} (hi : findColumnIndex schema n = some i) {A B : List RowData}
    (h : IndexOk schema (A ++ B) n tree) {seen : List Str}
    (hseen : ∀ k ∈ seen, ∃ r ∈ A, indexKey schema n r = some k) :
    validateIndexRows path schema tree i seen B = .ok () := by
  induction B generalizing A seen with
  | nil => rfl
  | cons r B ih =>
      obtain ⟨k, hk, hnew⟩ := h.indexable.key_new
      obtain ⟨j, v, c, hj, hcv, -, henc⟩ := columnValue_of_indexKey hk
      obtain rfl : i = j := by simpa using hi.symm.trans hj
      have hunseen : k ∉ seen := by
        intro hmem
        obtain ⟨s, hs, hsk⟩ := hseen k hmem
        exact hnew s hs hsk
      have hfind := h.find k
      rw [h.rowsWithKey_eq (by simp) hk] at hfind
      rw [validateIndexRows, hcv]
      simp only [Result.ok_bind, henc, Result.ofOption_some, hunseen, if_false, hfind, if_true]
      refine ih (A := A ++ [r]) (by simpa using h) ?_
      intro x hx
      rcases List.mem_cons.mp hx with rfl | hx
      · exact ⟨r, by simp, hk⟩
      · obtain ⟨s, hs, hsk⟩ := hseen x hx
        exact ⟨s, by simp [hs], hsk⟩

theorem indexedColumn_found {d t n : Str} {schema : TableSchema} (h : SchemaOk d t schema)
    (hn : n ∈ indexedColumns schema) : ∃ i, findColumnIndex schema n = some i := by
  rw [h.indexedColumns_eq] at hn
  obtain ⟨c, hc, rfl⟩ := List.mem_map.mp hn
  obtain ⟨i, hi⟩ := List.mem_iff_getElem?.mp (List.mem_filter.mp hc).1
  exact ⟨i, h.findColumnIndex_eq hi⟩

/-- **Every index of a table in step passes the check.** -/
theorem TableOk.validates {d t n : Str} {table : TableRuntime} (h : TableOk d t table)
    {tree : IndexTree} (hmem : (n, tree) ∈ table.indexes.entries) :
    validateIndex d t table n tree = .ok () := by
  have hok := h.indexes n tree hmem
  have hn : n ∈ indexedColumns table.schema := h.keys ▸ List.mem_map_of_mem hmem
  obtain ⟨i, hi⟩ := indexedColumn_found h.schema hn
  have hvalid := hok.valid.validates (by rw [hok.order]; decide)
  simp only [validateIndex, hvalid, hi]
  exact validateIndexRows_ok (A := []) hi (by simpa [TableHeap.scanAll] using hok) (by simp)

/-- **A state in step passes `CHECK INDEX`.** -/
theorem StateOk.validates {s : RuntimeState} (h : StateOk s) :
    validateRuntimeIndexConsistency s = .ok () := by
  refine Result.forEach_eq_ok.mpr ?_
  rintro ⟨n, d⟩ hd
  refine Result.forEach_eq_ok.mpr ?_
  rintro ⟨t, table⟩ ht
  refine Result.forEach_eq_ok.mpr ?_
  rintro ⟨c, tree⟩ hc
  have hdb := h n d (Dict.mem_entries_iff.mp hd)
  exact (hdb.tables t table (Dict.mem_entries_iff.mp ht)).validates hc

/-! ## §5. `REBUILD INDEX`. -/

/-- A loop that never fails rewrites every element. -/
theorem rewriteEach_total {α : Type} {f : α → α × Result Unit} {P : α → α → Prop} {l : List α}
    (h : ∀ a ∈ l, ∃ a', f a = (a', .ok ()) ∧ P a a') :
    ∃ l', rewriteEach f l = (l', .ok ()) ∧ List.Forall₂ P l l' := by
  induction l with
  | nil => exact ⟨[], rfl, List.Forall₂.nil⟩
  | cons a l ih =>
      obtain ⟨a', hf, hP⟩ := h a (by simp)
      obtain ⟨l', hl, hPs⟩ := ih fun x hx => h x (by simp [hx])
      exact ⟨a' :: l', by simp [rewriteEach, hf, hl], List.Forall₂.cons hP hPs⟩

/-- Entries rewritten one by one under their keys, seen through `g`. -/
theorem forall₂_view {β γ : Type} (d d' : Dict Str β) {g : β → γ} {P : Str → β → Prop}
    (h : List.Forall₂ (fun p p' : Str × β => p'.1 = p.1 ∧ P p.1 p'.2 ∧ g p'.2 = g p.2)
      d.entries d'.entries) :
    (∀ n b, d'.find? n = some b → P n b) ∧
      d'.mapVals (fun _ b => g b) = d.mapVals (fun _ b => g b) := by
  constructor
  · intro n b hfind
    have hmem := Dict.mem_entries_iff.mpr hfind
    clear hfind
    generalize d.entries = l at h
    generalize d'.entries = l' at h hmem
    induction h with
    | nil => cases hmem
    | cons hp _ ih =>
        rcases List.mem_cons.mp hmem with heq | hmem
        · subst heq
          obtain ⟨h1, h2, -⟩ := hp
          rwa [← h1] at h2
        · exact ih hmem
  · apply Dict.ext
    simp only [Dict.mapVals]
    generalize d.entries = l at h ⊢
    generalize d'.entries = l' at h ⊢
    induction h with
    | nil => rfl
    | cons hp _ ih =>
        obtain ⟨h1, -, h3⟩ := hp
        simp [h1, h3, ih]

theorem rebuildDatabaseIndexes_ok {n : Str} {d : DatabaseRuntime} (h : DatabaseOk n d) :
    ∃ d', rebuildDatabaseIndexes (n, d) = ((n, d'), .ok ()) ∧ DatabaseOk n d' ∧
      d'.view = d.view := by
  obtain ⟨l', hrun, hP⟩ := rewriteEach_total (f := rebuildTableIndexes n) (l := d.tables.entries)
    (P := fun p p' => p'.1 = p.1 ∧ TableOk n p.1 p'.2 ∧ p'.2.view = p.2.view) (by
      rintro ⟨t, table⟩ hmem
      obtain ⟨ix, hrun, hok⟩ :=
        rebuildTableIndexes_ok (h.tables t table (Dict.mem_entries_iff.mp hmem))
      exact ⟨_, hrun, rfl, hok, rfl⟩)
  have hnd : (l'.map Prod.fst).Nodup := by
    have := rewriteEach_keys (f := rebuildTableIndexes n) (fun _ => rfl) d.tables.entries
    rw [hrun] at this
    rw [this]
    exact d.tables.nodup
  have hview := forall₂_view d.tables ⟨l', hnd⟩ (g := TableRuntime.view)
    (P := fun t table => TableOk n t table) hP
  refine ⟨{ d with tables := ⟨l', hnd⟩ }, ?_, ⟨h.name, hview.1⟩, ?_⟩
  · simp only [rebuildDatabaseIndexes, hrun]
  · show (d.name, _) = (d.name, _)
    rw [hview.2]

/-- **A rebuild of all indexes succeeds, keeps the view and the invariant.** -/
theorem rebuildRuntimeIndexes_ok {s : RuntimeState} (h : StateOk s) :
    ∃ s', rebuildRuntimeIndexes s = (s', .ok ()) ∧ StateOk s' ∧ s'.view = s.view := by
  obtain ⟨l', hrun, hP⟩ := rewriteEach_total (f := rebuildDatabaseIndexes)
    (l := s.databases.entries)
    (P := fun p p' => p'.1 = p.1 ∧ DatabaseOk p.1 p'.2 ∧ p'.2.view = p.2.view) (by
      rintro ⟨n, d⟩ hmem
      obtain ⟨d', hrun, hok, hview⟩ := rebuildDatabaseIndexes_ok (h n d (Dict.mem_entries_iff.mp hmem))
      exact ⟨_, hrun, rfl, hok, hview⟩)
  have hnd : (l'.map Prod.fst).Nodup := by
    have := rewriteEach_keys (f := rebuildDatabaseIndexes) (fun _ => rfl) s.databases.entries
    rw [hrun] at this
    rw [this]
    exact s.databases.nodup
  have hview := forall₂_view s.databases ⟨l', hnd⟩ (g := DatabaseRuntime.view)
    (P := DatabaseOk) hP
  have hok : StateOk ⟨⟨l', hnd⟩⟩ := hview.1
  refine ⟨⟨⟨l', hnd⟩⟩, ?_, hok, hview.2⟩
  simp only [rebuildRuntimeIndexes, hrun]
  rw [hok.validates]

/-! ## §6. Views determine contents. -/

/-- A table with its indexes as lists of entries. -/
structure TableContents where
  view : TableView
  indexes : Dict Str (List (IndexEntry Str RowId))

/-- The contents of a table. -/
def TableRuntime.contents (table : TableRuntime) : TableContents :=
  ⟨table.view, table.indexes.mapVals fun _ tree => tree.entries⟩

/-- The contents of a database. -/
def DatabaseRuntime.contents (d : DatabaseRuntime) : Str × Dict Str TableContents :=
  (d.name, d.tables.mapVals fun _ table => table.contents)

/-- The contents of a state: everything but the shape of the trees. -/
def RuntimeState.contents (s : RuntimeState) : Dict Str (Str × Dict Str TableContents) :=
  s.databases.mapVals fun _ d => d.contents

/-- Two trees over the same rows have the same entries. -/
theorem IndexOk.entries_eq {schema : TableSchema} {rows : List RowData} {n : Str}
    {tree tree' : IndexTree} (h : IndexOk schema rows n tree) (h' : IndexOk schema rows n tree') :
    tree.entries = tree'.entries := by
  have hs := (h.valid.sorted (by rw [h.order]; decide)).1
  have hs' := (h'.valid.sorted (by rw [h'.order]; decide)).1
  have hnd : ∀ {l : List (IndexEntry Str RowId)}, l.Pairwise (fun e f => e.key < f.key) →
      l.Nodup := fun hl => hl.imp fun hlt heq => absurd (heq ▸ hlt) (lt_irrefl _)
  have hperm : tree.entries.Perm tree'.entries :=
    (List.perm_ext_iff_of_nodup (hnd hs) (hnd hs')).mpr fun e => by
      rw [h.mem_entries, h'.mem_entries]
  exact List.Perm.eq_of_pairwise (fun a b _ _ hab hba => absurd hab (lt_asymm hba)) hs hs' hperm

/-- **Under the invariant the view determines the contents.** -/
theorem contents_eq_of_view_eq {s s' : RuntimeState} (h : StateOk s) (h' : StateOk s')
    (heq : s'.view = s.view) : s'.contents = s.contents := by
  refine Dict.mapVals_congr heq fun d db db' hdb hdb' hview => ?_
  obtain ⟨hname, htables⟩ := Prod.mk.inj hview
  refine Prod.ext hname (Dict.mapVals_congr htables fun t table table' ht ht' htv => ?_)
  have hok := (h d db hdb).tables t table ht
  have hok' := (h' d db' hdb').tables t table' ht'
  obtain ⟨hschema, hheap⟩ := TableView.mk.inj htv
  refine congrArg₂ TableContents.mk htv (Dict.ext_find? ?_ fun n => ?_)
  · rw [Dict.keys_mapVals, Dict.keys_mapVals, hok.keys, hok'.keys, hschema]
  · rw [Dict.find?_mapVals, Dict.find?_mapVals]
    by_cases hn : n ∈ indexedColumns table.schema
    · obtain ⟨tree, htree, hix⟩ := hok.find_index hn
      obtain ⟨tree', htree', hix'⟩ := hok'.find_index (hschema ▸ hn)
      rw [hschema, hheap] at hix'
      rw [htree, htree', Option.map_some, Option.map_some, hix.entries_eq hix']
    · rw [Dict.find?_eq_none_iff.mpr (by rwa [hok'.keys, hschema]),
        Dict.find?_eq_none_iff.mpr (by rwa [hok.keys])]

theorem view_eq_of_contents_eq {s s' : RuntimeState} (heq : s'.contents = s.contents) :
    s'.view = s.view := by
  refine Dict.mapVals_congr heq fun d db db' _ _ hcon => ?_
  obtain ⟨hname, htables⟩ := Prod.mk.inj hcon
  refine Prod.ext hname (Dict.mapVals_congr htables fun t table table' _ _ htc => ?_)
  exact congrArg TableContents.view htc

end CustomDbms.Core
