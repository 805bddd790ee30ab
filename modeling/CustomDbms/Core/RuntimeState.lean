/-
  CustomDbms.Core.RuntimeState
  ────────────────────────────
  **TABLES, DATABASES, THE RUNTIME STATE** (`src/core/runtime_state.{hpp,cpp}`).

  An `unordered_map` is a `Dict`: its iteration order, which the language does
  not specify, is the order of insertion.  `EncodeIndexKey` stands once for the
  identical copies in `runtime_state.cpp`, `execution_engine.cpp` and
  `runtime_persistence.cpp`.
-/
import CustomDbms.Catalog.Schema
import CustomDbms.Index.Validate
import CustomDbms.Lib.Dict
import CustomDbms.Storage.TableHeap

namespace CustomDbms.Core

open CustomDbms.Common CustomDbms.Catalog CustomDbms.Index CustomDbms.Lib CustomDbms.Storage

/-- An index of the engine: encoded keys to row ids. -/
abbrev IndexTree := BStarPlusTree Str RowId

/-- `TableRuntime`. -/
structure TableRuntime where
  schema : TableSchema
  heap : TableHeap
  indexes : Dict Str IndexTree

/-- `DatabaseRuntime`. -/
structure DatabaseRuntime where
  name : Str
  tables : Dict Str TableRuntime

/-- `RuntimeState`. -/
structure RuntimeState where
  databases : Dict Str DatabaseRuntime

/-- A state without databases; also what a moved-from state is. -/
def RuntimeState.empty : RuntimeState := ⟨Dict.empty⟩

/-- `std::make_unique<BStarPlusTree>()`. -/
def newIndexTree : IndexTree := BStarPlusTree.new 8

/-! ## §1. Index keys. -/

/-- `EncodeIndexKey`; `none` where `std::get` throws. -/
def encodeIndexKey (v : Value) (type : ValueType) : Option Str :=
  match v with
  | .null => some (str "N")
  | .int i =>
      if type = .int64 then
        some (str "I" ++ hexPadded 16 (i.toUInt64 ^^^ ((1 : UInt64) <<< 63)).toNat)
      else none
  | .string s => if type = .int64 then none else some (str "S" ++ s)

/-- A value of the column's own type always has a key. -/
theorem encodeIndexKey_isSome {v : Value} {type : ValueType}
    (h : isNull v = true ∨ getValueType v = type) : (encodeIndexKey v type).isSome := by
  cases v with
  | null => rfl
  | int i =>
      obtain rfl : ValueType.int64 = type := by simpa [getValueType] using h
      rfl
  | string s =>
      obtain rfl : ValueType.string = type := by simpa [getValueType] using h
      rfl

/-! ## §2. Building indexes. -/

/-- One tree for every index of the schema. -/
def emptyIndexes (schema : TableSchema) : Dict Str IndexTree :=
  schema.indexes.foldl (fun d ix => d.emplace ix.columnName newIndexTree) Dict.empty

/-- `for (auto &[column_name, index_tree] : indexes)` over the entries: each
tree is updated in turn, the loop ends at the first failure. -/
def updateEntries (f : Str → IndexTree → Result IndexTree) :
    List (Str × IndexTree) → List (Str × IndexTree) × Result Unit
  | [] => ([], .ok ())
  | p :: rest =>
      match f p.1 p.2 with
      | .ok tree =>
          let r := updateEntries f rest
          ((p.1, tree) :: r.1, r.2)
      | .error e => (p :: rest, .error e)
      | .fault => (p :: rest, .fault)

theorem updateEntries_keys (f : Str → IndexTree → Result IndexTree)
    (l : List (Str × IndexTree)) : (updateEntries f l).1.map Prod.fst = l.map Prod.fst := by
  induction l with
  | nil => rfl
  | cons p rest ih =>
      rw [updateEntries]
      cases f p.1 p.2 with
      | ok tree => simpa using ih
      | error e => rfl
      | fault => rfl

/-- The same loop on the map. -/
def updateIndexes (f : Str → IndexTree → Result IndexTree) (indexes : Dict Str IndexTree) :
    Dict Str IndexTree × Result Unit :=
  (⟨(updateEntries f indexes.entries).1, by
      rw [updateEntries_keys]; exact indexes.nodup⟩,
    (updateEntries f indexes.entries).2)

/-- The loop over the rows around it. -/
def indexRows (f : RowData → Str → IndexTree → Result IndexTree) :
    Dict Str IndexTree → List RowData → Dict Str IndexTree × Result Unit
  | indexes, [] => (indexes, .ok ())
  | indexes, row :: rows =>
      match updateIndexes (f row) indexes with
      | (indexes', .ok ()) => indexRows f indexes' rows
      | r => r

/-- `row.values[column_index]` with the column's definition. -/
def columnValue (schema : TableSchema) (columnIndex : Nat) (row : RowData) :
    Result (Value × ColumnDefinition) := do
  let v ← Result.ofOption row.values[columnIndex]?
  let c ← Result.ofOption schema.columns[columnIndex]?
  return (v, c)

/-- The body of the index loops of `CloneTableRuntime` and of `INSERT`: the
row goes into the tree of a column the schema has. -/
def addIndexEntry (schema : TableSchema) (row : RowData) (columnName : Str)
    (tree : IndexTree) : Result IndexTree :=
  match findColumnIndex schema columnName with
  | none => .ok tree
  | some i => do
      let (v, c) ← columnValue schema i row
      let key ← Result.ofOption (encodeIndexKey v c.type)
      Result.ofOption (tree.insert key row.rowId)

/-- `CloneTableRuntime`. -/
def cloneTableRuntime (source : TableRuntime) : Result TableRuntime := do
  let rows := source.heap.scanAll
  let r := indexRows (addIndexEntry source.schema) (emptyIndexes source.schema) rows
  r.2
  return ⟨source.schema, heapOf rows, r.1⟩

/-- The tables of a cloned database. -/
def cloneDatabaseRuntime (source : DatabaseRuntime) : Result DatabaseRuntime := do
  let tables ← Result.mapList (fun p => cloneTableRuntime p.2) source.tables.entries
  return ⟨source.name, source.tables.withVals tables⟩

/-- `CloneRuntimeState`. -/
def cloneRuntimeState (source : RuntimeState) : Result RuntimeState := do
  let databases ← Result.mapList (fun p => cloneDatabaseRuntime p.2) source.databases.entries
  return ⟨source.databases.withVals databases⟩

/-! ## §3. Checking and rebuilding all indexes. -/

/-- `database.table.column` in the messages below. -/
def indexPath (databaseName tableName columnName : Str) : Str :=
  databaseName ++ str "." ++ tableName ++ str "." ++ columnName

/-- The loop of `ValidateRuntimeIndexConsistency` over the rows of one index. -/
def validateIndexRows (path : Str) (schema : TableSchema) (tree : IndexTree) (columnIndex : Nat) :
    List Str → List RowData → Result Unit
  | _, [] => .ok ()
  | seenKeys, row :: rows => do
      let (v, c) ← columnValue schema columnIndex row
      let key ← Result.ofOption (encodeIndexKey v c.type)
      if key ∈ seenKeys then
        .makeError .storageError (str "duplicate indexed key in heap for " ++ path)
      else
        let found ← Result.ofOption (tree.find key)
        if found = [row.rowId] then
          validateIndexRows path schema tree columnIndex (key :: seenKeys) rows
        else .makeError .storageError (str "index lookup mismatch for " ++ path)

/-- One index of one table. -/
def validateIndex (databaseName tableName : Str) (table : TableRuntime) (columnName : Str)
    (tree : IndexTree) : Result Unit :=
  let path := indexPath databaseName tableName columnName
  if !tree.validateCanonicalInvariants then
    .makeError .storageError (str "index invariants broken for " ++ path)
  else
    match findColumnIndex table.schema columnName with
    | none => .makeError .storageError (str "indexed column missing in schema: " ++ path)
    | some i => validateIndexRows path table.schema tree i [] table.heap.scanAll

/-- `ValidateRuntimeIndexConsistency`. -/
def validateRuntimeIndexConsistency (state : RuntimeState) : Result Unit :=
  Result.forEach (fun d =>
    Result.forEach (fun t =>
      Result.forEach (fun ix => validateIndex d.1 t.1 t.2 ix.1 ix.2) t.2.indexes.entries)
      d.2.tables.entries) state.databases.entries

/-- The body of the index loop of `RebuildRuntimeIndexes` for one row. -/
def rebuildIndexEntry (databaseName tableName : Str) (schema : TableSchema) (row : RowData)
    (columnName : Str) (tree : IndexTree) : Result IndexTree :=
  match findColumnIndex schema columnName with
  | none => .makeError .storageError (str "indexed column missing in schema during rebuild: "
      ++ indexPath databaseName tableName columnName)
  | some i => do
      let (v, c) ← columnValue schema i row
      let key ← Result.ofOption (encodeIndexKey v c.type)
      Result.ofOption (tree.insert key row.rowId)

/-- The indexes of one table cleared and rebuilt in place. -/
def rebuildTableIndexes (databaseName : Str) (p : Str × TableRuntime) :
    (Str × TableRuntime) × Result Unit :=
  let r := indexRows (rebuildIndexEntry databaseName p.1 p.2.schema) (emptyIndexes p.2.schema)
    p.2.heap.scanAll
  ((p.1, { p.2 with indexes := r.1 }), r.2)

/-- A loop that rewrites the elements of a list in place and ends at the
first failure. -/
def rewriteEach {α : Type} (f : α → α × Result Unit) : List α → List α × Result Unit
  | [] => ([], .ok ())
  | a :: as =>
      match f a with
      | (a', .ok ()) =>
          let r := rewriteEach f as
          (a' :: r.1, r.2)
      | (a', r) => (a' :: as, r)

/-- What each step leaves alone, the loop leaves alone. -/
theorem rewriteEach_map {α γ : Type} {f : α → α × Result Unit} {g : α → γ}
    (hg : ∀ a, g (f a).1 = g a) (l : List α) : (rewriteEach f l).1.map g = l.map g := by
  induction l with
  | nil => rfl
  | cons a l ih =>
      have ha := hg a
      rw [rewriteEach]
      rcases hfa : f a with ⟨a', r⟩
      rw [hfa] at ha
      cases r with
      | ok u => rw [List.map_cons, List.map_cons, ha, ih]
      | error e => rw [List.map_cons, List.map_cons, ha]
      | fault => rw [List.map_cons, List.map_cons, ha]

theorem rewriteEach_keys {α β : Type} {f : α × β → (α × β) × Result Unit}
    (hf : ∀ p, (f p).1.1 = p.1) (l : List (α × β)) :
    (rewriteEach f l).1.map Prod.fst = l.map Prod.fst :=
  rewriteEach_map hf l

/-- The tables of one database rebuilt in place. -/
def rebuildDatabaseIndexes (p : Str × DatabaseRuntime) : (Str × DatabaseRuntime) × Result Unit :=
  let r := rewriteEach (rebuildTableIndexes p.1) p.2.tables.entries
  ((p.1, { p.2 with tables := ⟨r.1, by
    rw [rewriteEach_keys (fun _ => rfl)]; exact p.2.tables.nodup⟩ }), r.2)

/-- `RebuildRuntimeIndexes`. -/
def rebuildRuntimeIndexes (state : RuntimeState) : RuntimeState × Result Unit :=
  let r := rewriteEach rebuildDatabaseIndexes state.databases.entries
  let state' : RuntimeState := ⟨⟨r.1, by
    rw [rewriteEach_keys (fun _ => rfl)]; exact state.databases.nodup⟩⟩
  match r.2 with
  | .ok () => (state', validateRuntimeIndexConsistency state')
  | e => (state', e)

end CustomDbms.Core
