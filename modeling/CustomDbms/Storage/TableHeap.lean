/-
  CustomDbms.Storage.TableHeap
  ────────────────────────────
  **THE ROW HEAP OF A TABLE** (`src/storage/table_heap.cpp`).

  The heap keeps its rows in insertion order and counts row ids upwards.
  `HeapOk` is its invariant: every row has an id, ids increase strictly along
  the heap, and the counter stands right behind the largest one.  A heap with
  this property is determined by its rows, so copying the rows into a fresh
  heap, as a clone does, reproduces it (`heapOf_rows`).
-/
import CustomDbms.Common.Types

namespace CustomDbms.Storage

open CustomDbms.Common

/-- `TableHeap`; its private copy of the schema is never read. -/
structure TableHeap where
  rows : List RowData
  nextRowId : Nat
  deriving DecidableEq

namespace TableHeap

/-- The constructor. -/
def new : TableHeap := ⟨[], 0⟩

/-- `Insert`: the row gets the next id unless it brings one. -/
def insert (h : TableHeap) (row : RowData) : TableHeap × RowId :=
  match row.rowId with
  | none =>
      (⟨h.rows ++ [{ row with rowId := some h.nextRowId }], h.nextRowId + 1⟩, some h.nextRowId)
  | some i => (⟨h.rows ++ [row], if h.nextRowId ≤ i then i + 1 else h.nextRowId⟩, some i)

/-- `ScanAll`. -/
def scanAll (h : TableHeap) : List RowData := h.rows

/-- `FindByRowId`. -/
def findByRowId (h : TableHeap) (i : RowId) : Option RowData :=
  h.rows.find? (fun row => decide (row.rowId = i))

/-- The counter after the rows of `ReplaceAll`. -/
def nextAfter : Nat → List RowData → Nat
  | n, [] => n
  | n, row :: rows =>
      match row.rowId with
      | some i => nextAfter (if n ≤ i then i + 1 else n) rows
      | none => nextAfter n rows

/-- `ReplaceAll`. -/
def replaceAll (rows : List RowData) : TableHeap := ⟨rows, nextAfter 0 rows⟩

end TableHeap

/-! ## §1. Rows in id order. -/

/-- Every row has an id and the ids increase strictly. -/
def RowsOrdered (rows : List RowData) : Prop :=
  (∀ r ∈ rows, r.rowId.isSome) ∧
    rows.Pairwise (fun r s => ∀ i ∈ r.rowId, ∀ j ∈ s.rowId, i < j)

theorem RowsOrdered.nodup {rows : List RowData} (h : RowsOrdered rows) :
    (rows.map (·.rowId)).Nodup := by
  obtain ⟨hsome, hp⟩ := h
  rw [List.Nodup, List.pairwise_map]
  refine hp.imp_of_mem ?_
  intro r s hr _ hlt heq
  obtain ⟨i, hi⟩ := Option.isSome_iff_exists.mp (hsome r hr)
  exact Nat.lt_irrefl i (hlt i hi i (heq ▸ hi))

theorem RowsOrdered.sublist {rows rows' : List RowData} (h : RowsOrdered rows)
    (hs : List.Sublist rows' rows) : RowsOrdered rows' :=
  ⟨fun r hr => h.1 r (hs.subset hr), h.2.sublist hs⟩

/-- Order depends on the ids alone. -/
theorem rowsOrdered_congr {rows rows' : List RowData}
    (h : rows'.map (·.rowId) = rows.map (·.rowId)) (ho : RowsOrdered rows) :
    RowsOrdered rows' := by
  have key : ∀ l : List RowData, RowsOrdered l ↔ (∀ i ∈ l.map (·.rowId), Option.isSome i) ∧
      (l.map (·.rowId)).Pairwise (fun a b => ∀ i ∈ a, ∀ j ∈ b, i < j) := by
    intro l
    simp only [RowsOrdered, List.mem_map, List.pairwise_map, forall_exists_index, and_imp,
      forall_apply_eq_imp_iff₂]
  rw [key] at ho ⊢
  rwa [h]

/-- Every id lies below the counter. -/
theorem lt_nextAfter (rows : List RowData) (n : Nat) :
    n ≤ TableHeap.nextAfter n rows ∧
      ∀ r ∈ rows, ∀ i ∈ r.rowId, i < TableHeap.nextAfter n rows := by
  induction rows generalizing n with
  | nil => simp [TableHeap.nextAfter]
  | cons r rows ih =>
      rw [TableHeap.nextAfter]
      cases hr : r.rowId with
      | none =>
          obtain ⟨h1, h2⟩ := ih n
          refine ⟨h1, ?_⟩
          intro s hs i hi
          rcases List.mem_cons.mp hs with rfl | hs
          · rw [hr] at hi
            simp at hi
          · exact h2 s hs i hi
      | some k =>
          have hm : n ≤ (if n ≤ k then k + 1 else n) ∧ k < (if n ≤ k then k + 1 else n) := by
            split <;> omega
          simp only
          generalize (if n ≤ k then k + 1 else n) = m at hm ⊢
          obtain ⟨h1, h2⟩ := ih m
          refine ⟨by omega, ?_⟩
          intro s hs i hi
          rcases List.mem_cons.mp hs with rfl | hs
          · rw [hr] at hi
            obtain rfl : k = i := by simpa using hi
            omega
          · exact h2 s hs i hi

theorem nextAfter_concat (n : Nat) (rows : List RowData) (r : RowData) :
    TableHeap.nextAfter n (rows ++ [r])
      = match r.rowId with
        | some i => if TableHeap.nextAfter n rows ≤ i then i + 1 else TableHeap.nextAfter n rows
        | none => TableHeap.nextAfter n rows := by
  induction rows generalizing n with
  | nil =>
      obtain ⟨i, vs⟩ := r
      cases i <;> rfl
  | cons s rows ih =>
      rw [List.cons_append, TableHeap.nextAfter, TableHeap.nextAfter]
      cases s.rowId with
      | none => exact ih n
      | some k => exact ih _

/-! ## §2. The heap invariant. -/

/-- Rows in id order, and the counter right behind them. -/
structure HeapOk (h : TableHeap) : Prop where
  ordered : RowsOrdered h.rows
  next : h.nextRowId = TableHeap.nextAfter 0 h.rows

theorem heapOk_new : HeapOk TableHeap.new :=
  ⟨⟨by simp [TableHeap.new], List.Pairwise.nil⟩, rfl⟩

theorem heapOk_replaceAll {rows : List RowData} (h : RowsOrdered rows) :
    HeapOk (TableHeap.replaceAll rows) := ⟨h, rfl⟩

/-- A valid heap is what `ReplaceAll` makes of its rows. -/
theorem HeapOk.eq_replaceAll {h : TableHeap} (ho : HeapOk h) :
    h = TableHeap.replaceAll h.rows := by
  cases h
  simp only [TableHeap.replaceAll, TableHeap.mk.injEq, true_and]
  exact ho.next

/-- Inserting a row without an id. -/
theorem HeapOk.insert_new {h : TableHeap} (ho : HeapOk h) {row : RowData}
    (hrow : row.rowId = none) :
    HeapOk (h.insert row).1 ∧ (h.insert row).2 = some h.nextRowId ∧
      (h.insert row).1.rows = h.rows ++ [{ row with rowId := some h.nextRowId }] := by
  have hlt := (lt_nextAfter h.rows 0).2
  rw [← ho.next] at hlt
  unfold TableHeap.insert
  rw [hrow]
  refine ⟨⟨⟨?_, ?_⟩, ?_⟩, rfl, rfl⟩
  · intro r hr
    rcases List.mem_append.mp hr with hr | hr
    · exact ho.ordered.1 r hr
    · rw [List.mem_singleton.mp hr]
      rfl
  · refine List.pairwise_append.mpr ⟨ho.ordered.2, List.pairwise_singleton _ _, ?_⟩
    intro r hr s hs i hi j hj
    rw [List.mem_singleton.mp hs] at hj
    obtain rfl : h.nextRowId = j := by simpa using hj
    exact hlt r hr i hi
  · rw [nextAfter_concat, ← ho.next]
    simp

/-- Copying rows one by one with their ids, as `CloneTableRuntime` does. -/
def heapOf (rows : List RowData) : TableHeap :=
  rows.foldl (fun h row => (h.insert row).1) TableHeap.new

theorem heapOf_foldl {rows : List RowData} (h : TableHeap)
    (hsome : ∀ r ∈ rows, r.rowId.isSome) :
    rows.foldl (fun h row => (h.insert row).1) h
      = ⟨h.rows ++ rows, TableHeap.nextAfter h.nextRowId rows⟩ := by
  induction rows generalizing h with
  | nil => simp [TableHeap.nextAfter]
  | cons r rows ih =>
      obtain ⟨i, hi⟩ := Option.isSome_iff_exists.mp (hsome r (by simp))
      rw [List.foldl_cons, ih _ (fun s hs => hsome s (by simp [hs]))]
      simp [TableHeap.insert, hi, TableHeap.nextAfter]

/-- **Copying the rows of a valid heap reproduces it.** -/
theorem heapOf_rows {h : TableHeap} (ho : HeapOk h) : heapOf h.rows = h := by
  rw [heapOf, heapOf_foldl _ ho.ordered.1]
  simp only [TableHeap.new, List.nil_append]
  rw [← ho.next]

end CustomDbms.Storage
