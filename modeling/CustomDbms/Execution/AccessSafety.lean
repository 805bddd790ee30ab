/-
  CustomDbms.Execution.AccessSafety
  ─────────────────────────────────
  **EVERY ACCESS OF THE EXECUTOR IS IN RANGE.**

  No access is checked by the code.  They are in range because a row has as
  many values as its table has columns, because `FindColumnIndex` answers with
  columns of the schema only, and, for the rows of an INSERT, because the parser
  has compared their lengths with the list of columns.
-/
import CustomDbms.Execution.AccessOutcomes
import CustomDbms.Execution.SelectedRows
import CustomDbms.Execution.StatementAtomicity
import CustomDbms.Execution.WhereErrors

namespace CustomDbms.Execution.Accesses

open CustomDbms.Common CustomDbms.Catalog CustomDbms.Core CustomDbms.Lib CustomDbms.Parser
open CustomDbms.Storage CustomDbms.Versioning
open CustomDbms.Lib.Traced (lift read write deref Safe outcome_bind outcome_pure outcome_lift
  outcome_ite)

/-- Sequencing, for the executor. -/
theorem safe_bind {α β : Type} {x : Run α} {f : α → Run β} (hx : x.Safe)
    (hf : ∀ a, x.outcome = .ok a → (f a).Safe) : (x >>= f).Safe :=
  Safe.bind hx fun a ha => hf a (value?_eq_some.mp ha)

/-- A part whose value plays no role for the rest. -/
theorem safe_seq {α β : Type} {x : Run α} {f : α → Run β} (hx : x.Safe)
    (hf : ∀ a, (f a).Safe) : (x >>= f).Safe :=
  Safe.bind hx fun a _ => hf a

/-! ## §1. Expressions and `FilterRows`. -/

section Rows

variable {schema : TableSchema} {row : RowData}

theorem safe_findColumnFrom {columns : List Catalog.ColumnDefinition} (n : Str) {is : List Nat}
    (h : ∀ i ∈ is, i < columns.length) : (findColumnFrom columns n is).Safe := by
  induction is with
  | nil => exact Safe.pure none
  | cons i is ih =>
      apply safe_seq (Safe.read (h i (List.mem_cons_self ..)))
      intro c
      apply Safe.ite
      · intro _
        exact Safe.pure _
      · intro _
        exact ih fun j hj => h j (List.mem_cons_of_mem _ hj)

theorem safe_findColumnIndex (schema : TableSchema) (n : Str) : (findColumnIndex schema n).Safe :=
  safe_findColumnFrom n fun _ hi => List.mem_range.mp hi

/-- What follows a call of `FindColumnIndex` runs on its answer. -/
theorem safe_findColumnIndex_bind {α : Type} {n : Str} {f : Option Nat → Run α}
    (h : (f (Catalog.findColumnIndex schema n)).Safe) : (findColumnIndex schema n >>= f).Safe := by
  apply safe_bind (safe_findColumnIndex schema n)
  intro columnIndex hfound
  rw [outcome_findColumnIndex] at hfound
  cases hfound
  exact h

/-- A column found is a column of the schema. -/
theorem safe_columnIndexOr_bind {α : Type} {n : Str} {code : ErrorCode} {message : Str}
    {f : Nat → Run α} (h : ∀ i, Catalog.findColumnIndex schema n = some i → (f i).Safe) :
    (columnIndexOr schema n (.makeError code message) >>= f).Safe := by
  apply safe_bind
  · apply safe_findColumnIndex_bind
    cases Catalog.findColumnIndex schema n with
    | none => exact Safe.lift _
    | some i => exact Safe.deref rfl
  · intro i hi
    rw [outcome_columnIndexOr] at hi
    cases hfound : Catalog.findColumnIndex schema n with
    | none =>
        rw [hfound] at hi
        cases hi
    | some j =>
        rw [hfound] at hi
        cases hi
        exact h i hfound

theorem safe_evaluateValueExpression (hrow : row.values.length = schema.columns.length)
    (expr : Expression) : (evaluateValueExpression expr schema row).Safe := by
  cases expr with
  | literal v => exact Safe.pure v
  | columnReference t o n =>
      apply safe_columnIndexOr_bind
      intro i hi
      exact Safe.read (hrow ▸ findColumnIndex_lt hi)
  | _ => exact Safe.lift _

theorem safe_evaluatePredicate (re : RegexMatch)
    (hrow : row.values.length = schema.columns.length) (expr : Expression) :
    (evaluatePredicate re schema row expr).Safe := by
  have hvalue := safe_evaluateValueExpression hrow
  have hoperand : ∀ e, (operand (evaluateValueExpression e schema row)).Safe := hvalue
  induction expr with
  | logical op left right ihl ihr =>
      apply safe_seq ihl
      intro l
      apply safe_seq ihr
      intro r
      exact Safe.pure _
  | binaryComparison op left right =>
      apply safe_seq (hvalue left)
      intro l
      apply safe_seq (hvalue right)
      intro r
      apply Safe.ite
      · intro _
        exact Safe.lift _
      · intro _
        exact safe_seq (Safe.lift _) fun _ => Safe.pure _
  | between value lower upper =>
      apply safe_seq (hoperand value)
      intro v
      apply safe_seq (hoperand lower)
      intro lo
      apply safe_seq (hoperand upper)
      intro hi
      exact Safe.lift _
  | like value pattern =>
      apply safe_seq (hoperand value)
      intro v
      apply safe_seq (hoperand pattern)
      intro p
      exact Safe.lift _
  | literal v => exact safe_seq (hvalue (.literal v)) fun _ => Safe.pure _
  | columnReference t o n =>
      exact safe_seq (hvalue (.columnReference t o n)) fun _ => Safe.pure _
  | aggregateCall => exact safe_seq (hvalue _) fun _ => Safe.pure _

theorem safe_passes (re : RegexMatch) (hrow : row.values.length = schema.columns.length)
    (clause : Option Expression) : (passes re schema clause row).Safe := by
  cases clause with
  | none => exact Safe.pure true
  | some expr => exact safe_seq (Safe.deref rfl) fun e => safe_evaluatePredicate re hrow e

end Rows

/-- The rows of a table have as many values as it has columns. -/
def Wide (schema : TableSchema) (rows : List RowData) : Prop :=
  ∀ row ∈ rows, row.values.length = schema.columns.length

section Filter

variable {schema : TableSchema} {rows : List RowData} {clause : Option Expression}

theorem safe_filterScan (re : RegexMatch) (h : Wide schema rows) :
    (filterScan re schema clause rows).Safe := by
  induction rows with
  | nil => exact Safe.pure []
  | cons row rows ih =>
      apply safe_seq (safe_passes re (h row (List.mem_cons_self ..)) clause)
      intro pass
      apply safe_seq (ih fun r hr => h r (List.mem_cons_of_mem _ hr))
      intro rest
      exact Safe.pure _

theorem safe_filterCandidates (re : RegexMatch) (h : Wide schema rows) (ids : List RowId) :
    (filterCandidates re schema clause rows ids).Safe := by
  induction ids with
  | nil => exact Safe.pure []
  | cons i ids ih =>
      rw [filterCandidates]
      cases hfind : rows.find? fun row => decide (row.rowId = i) with
      | none => exact ih
      | some row =>
          apply safe_seq (safe_passes re (h row (List.mem_of_find?_eq_some hfind)) clause)
          intro pass
          exact safe_seq ih fun rest => Safe.pure _

theorem safe_encodeAs {i : Nat} (hi : i < schema.columns.length) (v : Value) :
    (encodeAs schema (some i) v).Safe := by
  apply safe_bind (Safe.deref rfl)
  intro j hj
  rw [outcome_deref, Result.ofOption_some] at hj
  cases hj
  exact safe_seq (Safe.read hi) fun c => Safe.lift _

theorem safe_indexCandidates (schema : TableSchema) (indexes : Dict Str IndexTree)
    (clause : Option Expression) : (indexCandidates schema indexes clause).Safe := by
  unfold indexCandidates
  split
  · rename_i op t o column v
    apply safe_findColumnIndex_bind
    cases indexes.find? column with
    | none => exact Safe.pure none
    | some tree =>
        cases hi : Catalog.findColumnIndex schema column with
        | none => exact Safe.pure none
        | some i =>
            exact safe_seq (safe_encodeAs (findColumnIndex_lt hi) v) fun encoded => Safe.lift _
  · rename_i t o column lower upper
    apply safe_findColumnIndex_bind
    cases indexes.find? column with
    | none => exact Safe.pure none
    | some tree =>
        cases hi : Catalog.findColumnIndex schema column with
        | none => exact Safe.pure none
        | some i =>
            have hlt := findColumnIndex_lt hi
            apply safe_seq (safe_encodeAs hlt lower)
            intro lowerKey
            exact safe_seq (safe_encodeAs hlt upper) fun upperKey => Safe.lift _
  · exact Safe.pure none

theorem safe_filterRows (re : RegexMatch) (h : Wide schema rows) (indexes : Dict Str IndexTree) :
    (filterRows re rows clause schema indexes).Safe := by
  apply safe_seq (safe_indexCandidates schema indexes clause)
  intro candidates
  cases candidates with
  | none => exact safe_seq (safe_filterScan re h) fun found => Safe.pure _
  | some ids => exact safe_seq (safe_filterCandidates re h ids) fun found => Safe.pure _

end Filter

/-! ## §2. Rows against the schema and the indexes. -/

section Indexes

variable {schema : TableSchema} {row : RowData}

theorem fillDefault_length {c : Catalog.ColumnDefinition} {values values' : List Value} {i : Nat}
    (h : (fillDefault c values i).outcome = .ok values') : values'.length = values.length := by
  rw [fillDefault, outcome_bind] at h
  obtain ⟨v, -, h⟩ := Result.bind_eq_ok.mp h
  rw [outcome_ite] at h
  split at h
  · obtain ⟨w, -, h⟩ := Result.bind_eq_ok.mp h
    rw [outcome_write] at h
    split at h
    · cases h
      exact List.length_set
    · cases h
  · cases h
    rfl

theorem safe_fillDefault {c : Catalog.ColumnDefinition} {values : List Value} {i : Nat}
    (hi : i < values.length) : (fillDefault c values i).Safe := by
  apply safe_seq (Safe.read hi)
  intro v
  apply Safe.ite
  · intro hdefault
    have hsome : c.defaultValue.isSome = true := (Bool.and_eq_true_iff.mp hdefault).2
    exact safe_seq (Safe.deref hsome) fun w => Safe.write hi w
  · intro _
    exact Safe.pure values

theorem safe_validateColumn {columns : List Catalog.ColumnDefinition} {values : List Value}
    {i : Nat} (hlen : values.length = columns.length) (hi : i < columns.length) :
    (validateColumn columns values i).Safe := by
  apply safe_seq (Safe.read hi)
  intro c
  apply safe_bind (safe_fillDefault (hlen ▸ hi))
  intro values' hvalues'
  have hi' : i < values'.length := by
    rw [fillDefault_length hvalues', hlen]
    exact hi
  apply safe_seq (Safe.read hi')
  intro _
  apply safe_seq (Safe.read hi')
  intro v
  apply Safe.ite
  · intro _
    exact Safe.pure _
  · intro _
    exact Safe.lift _

theorem validateColumn_length {columns : List Catalog.ColumnDefinition}
    {values values' : List Value} {i : Nat}
    (h : (validateColumn columns values i).outcome = .ok values') :
    values'.length = values.length := by
  obtain ⟨c, -, h⟩ := Result.bind_eq_ok.mp h
  obtain ⟨filled, hfilled, h⟩ := Result.bind_eq_ok.mp h
  obtain ⟨_, -, h⟩ := Result.bind_eq_ok.mp h
  obtain ⟨v, -, h⟩ := Result.bind_eq_ok.mp h
  rw [outcome_ite] at h
  split at h
  · cases h
    exact fillDefault_length hfilled
  · cases h

/-- The loop keeps the number of values. -/
theorem safe_validateRowAgainstSchema (hrow : row.values.length = schema.columns.length) :
    (validateRowAgainstSchema row schema).Safe := by
  apply safe_seq
  · apply Safe.foldlM (I := fun values => values.length = schema.columns.length)
    · intro values hlen i hi
      exact safe_validateColumn hlen (List.mem_range.mp hi)
    · intro values hlen i _ values' hvalues'
      exact (validateColumn_length (value?_eq_some.mp hvalues')).trans hlen
    · exact hrow
  · intro values
    exact Safe.pure _

theorem safe_freshIndexKey {i : Nat} (hrow : row.values.length = schema.columns.length)
    (hi : i < schema.columns.length) (n : Str) (tree : IndexTree) :
    (freshIndexKey schema (some i) row n tree).Safe := by
  apply safe_bind (Safe.deref rfl)
  intro j hj
  rw [outcome_deref, Result.ofOption_some] at hj
  cases hj
  apply safe_seq (Safe.read (hrow ▸ hi))
  intro v
  apply Safe.ite
  · intro _
    exact Safe.lift _
  · intro _
    apply safe_seq (safe_encodeAs hi v)
    intro key
    apply safe_seq (Safe.lift _)
    intro found
    apply Safe.ite
    · intro _
      exact Safe.pure key
    · intro _
      exact Safe.lift _

theorem safe_insertEntry {i : Nat} (hrow : row.values.length = schema.columns.length)
    (hi : i < schema.columns.length) (tree : IndexTree) :
    (insertEntry schema (some i) row tree).Safe := by
  apply safe_bind (Safe.deref rfl)
  intro j hj
  rw [outcome_deref, Result.ofOption_some] at hj
  cases hj
  apply safe_seq (Safe.read (hrow ▸ hi))
  intro v
  exact safe_seq (safe_encodeAs hi v) fun key => Safe.lift _

theorem safe_addIndexEntry (hrow : row.values.length = schema.columns.length) (n : Str)
    (tree : IndexTree) : (addIndexEntry schema row n tree).Safe := by
  apply safe_findColumnIndex_bind
  cases hi : Catalog.findColumnIndex schema n with
  | none => exact Safe.pure tree
  | some i => exact safe_insertEntry hrow (findColumnIndex_lt hi) tree

theorem safe_rebuildIndexEntry (d t : Str) (hrow : row.values.length = schema.columns.length)
    (n : Str) (tree : IndexTree) : (rebuildIndexEntry d t schema row n tree).Safe := by
  apply safe_findColumnIndex_bind
  cases hi : Catalog.findColumnIndex schema n with
  | none => exact Safe.lift _
  | some i => exact safe_insertEntry hrow (findColumnIndex_lt hi) tree

theorem safe_checkedIndexEntry (hrow : row.values.length = schema.columns.length) (n : Str)
    (tree : IndexTree) : (checkedIndexEntry schema row n tree).Safe := by
  apply safe_findColumnIndex_bind
  cases hi : Catalog.findColumnIndex schema n with
  | none => exact Safe.lift _
  | some i =>
      exact safe_seq (safe_freshIndexKey hrow (findColumnIndex_lt hi) n tree) fun key =>
        Safe.lift _

theorem safe_updateEntries {f : Str → IndexTree → Run IndexTree}
    (h : ∀ n tree, (f n tree).Safe) (entries : List (Str × IndexTree)) :
    (updateEntries f entries).Safe :=
  Safe.mapM' fun p _ => safe_seq (h p.1 p.2) fun _ => Safe.pure _

theorem safe_indexRows {f : RowData → Str → IndexTree → Run IndexTree} {rows : List RowData}
    (h : ∀ row ∈ rows, ∀ n tree, (f row n tree).Safe) (entries : List (Str × IndexTree)) :
    (indexRows f entries rows).Safe :=
  Safe.foldlM (I := fun _ => True)
    (fun entries _ row hrow => safe_updateEntries (h row hrow) entries)
    (fun _ _ _ _ _ _ => trivial) trivial

theorem safe_rebuildIndexes {rows : List RowData} (h : Wide schema rows) :
    (rebuildIndexes schema rows).Safe :=
  safe_indexRows (fun row hrow => safe_checkedIndexEntry (h row hrow)) _

theorem safe_eventRowId (beforeRow afterRow : Option RowData) :
    (eventRowId beforeRow afterRow).Safe := by
  unfold eventRowId
  apply Safe.ite
  · intro hafter
    exact safe_seq (Safe.deref hafter) fun r => Safe.pure _
  · intro _
    apply Safe.ite
    · intro hbefore
      exact safe_seq (Safe.deref hbefore) fun r => Safe.pure _
    · intro _
      exact Safe.pure _

end Indexes

/-! ## §3. INSERT, UPDATE and DELETE. -/

section Writes

variable {schema : TableSchema}

theorem safe_insertColumnMap (schema : TableSchema) (names : List Str) :
    (insertColumnMap schema names).Safe := by
  apply Safe.mapM'
  intro n _
  apply safe_findColumnIndex_bind
  cases Catalog.findColumnIndex schema n with
  | none => exact Safe.lift _
  | some i => exact Safe.deref rfl

/-- `row.values[input_to_schema[i]]`: the map has an entry for every value of
the input row, and its entries are columns. -/
theorem safe_fillCell {map : List Nat} {input : List Expression} {values : List Value} {i : Nat}
    (hi : i < input.length) (hlen : input.length = map.length)
    (hmap : ∀ j ∈ map, j < values.length) : (fillCell map input values i).Safe := by
  apply safe_seq (Safe.read hi)
  intro e
  cases e with
  | literal v =>
      apply safe_bind (Safe.read (hlen ▸ hi))
      intro column hcolumn
      rw [outcome_read, Result.ofOption_eq_ok] at hcolumn
      exact Safe.write (hmap column (List.mem_of_getElem? hcolumn)) v
  | _ => exact Safe.lift _

theorem fillCell_length {map : List Nat} {input : List Expression} {values values' : List Value}
    {i : Nat} (h : (fillCell map input values i).outcome = .ok values') :
    values'.length = values.length := by
  obtain ⟨e, -, h⟩ := Result.bind_eq_ok.mp h
  cases e with
  | literal v =>
      obtain ⟨column, -, h⟩ := Result.bind_eq_ok.mp h
      rw [outcome_write] at h
      split at h
      · cases h
        exact List.length_set
      · cases h
  | _ => cases h

theorem safe_fillRow {map : List Nat} {input : List Expression} {values : List Value}
    (hlen : input.length = map.length) (hmap : ∀ j ∈ map, j < values.length) :
    (fillRow map input values).Safe := by
  apply Safe.foldlM (I := fun vs => vs.length = values.length)
  · intro vs hvs i hi
    exact safe_fillCell (List.mem_range.mp hi) hlen (hvs ▸ hmap)
  · intro vs hvs i _ vs' hvs'
    exact (fillCell_length (value?_eq_some.mp hvs')).trans hvs
  · rfl

/-- An input row longer than the list of columns would be read past that list. -/
example : ∃ a ∈ (fillRow [0] [.literal .null, .literal .null] [.null]).trace, ¬ a.InRange := by
  decide

theorem safe_buildInsertRow {map : List Nat} {input : List Expression}
    (hlen : input.length = map.length) (hmap : ∀ j ∈ map, j < schema.columns.length) :
    (buildInsertRow schema map input).Safe := by
  apply safe_bind
  · apply safe_fillRow hlen
    rw [List.length_replicate]
    exact hmap
  · intro vs hvs
    have hfill : (fillRow map input (List.replicate schema.columns.length Value.null)).outcome
        = Execution.fillRow map input (List.replicate schema.columns.length Value.null) := by
      rw [fillRow, List.range_eq_range']
      exact foldlM_fillCell map [] input _
    rw [hfill] at hvs
    apply safe_validateRowAgainstSchema
    exact (fillRow_length hvs).trans List.length_replicate

theorem safe_checkEntry {row : RowData} (hrow : row.values.length = schema.columns.length)
    (p : Str × IndexTree) : (checkEntry schema row p).Safe := by
  apply safe_findColumnIndex_bind
  cases hi : Catalog.findColumnIndex schema p.1 with
  | none => exact Safe.pure _
  | some i =>
      exact safe_seq (safe_freshIndexKey hrow (findColumnIndex_lt hi) p.1 p.2) fun key =>
        Safe.pure _

theorem safe_admitRow {table : TableRuntime} {map : List Nat} {input : List Expression}
    (hlen : input.length = map.length) (hmap : ∀ j ∈ map, j < table.schema.columns.length) :
    (admitRow table map input).Safe := by
  apply safe_bind (safe_buildInsertRow hlen hmap)
  intro row hrow
  rw [outcome_buildInsertRow] at hrow
  have hwide := (buildInsertRow_ok hrow).2
  exact safe_seq (Safe.forM fun p _ => safe_checkEntry hwide p) fun _ => Safe.pure row

theorem safe_storeRow {table : TableRuntime} {row : RowData}
    (hrow : row.values.length = table.schema.columns.length) : (storeRow table row).Safe := by
  apply safe_seq
  · apply safe_updateEntries
    have hwide : ({ row with rowId := (table.heap.insert row).2 } : RowData).values.length
        = table.schema.columns.length := hrow
    exact safe_addIndexEntry hwide
  · intro _
    exact safe_seq (safe_eventRowId _ _) fun _ => Safe.pure ()

/-- **The loop of INSERT**: every input row is as long as the list of columns. -/
theorem safe_insertRows (env : Env) (d : Str) {map : List Nat} {inputs : List (List Expression)}
    (hlen : ∀ input ∈ inputs, input.length = map.length) {table : TableRuntime}
    (hmap : ∀ j ∈ map, j < table.schema.columns.length) (v : VersionStore) :
    (insertRows env d map inputs table v).Safe := by
  induction inputs generalizing table v with
  | nil => exact Safe.pure ()
  | cons input inputs ih =>
      apply safe_bind (safe_admitRow (hlen input (List.mem_cons_self ..)) hmap)
      intro row hrow
      rw [outcome_admitRow] at hrow
      obtain ⟨built, hbuilt, hrow⟩ := Result.bind_eq_ok.mp hrow
      obtain ⟨_, -, hrow⟩ := Result.bind_eq_ok.mp hrow
      cases hrow
      apply safe_seq (safe_storeRow (buildInsertRow_ok hbuilt).2)
      intro _
      have hschema : (Execution.storeRow env d table v row).1.schema = table.schema := by
        rw [Execution.storeRow]
        split <;> rfl
      apply ih fun input hinput => hlen input (List.mem_cons_of_mem _ hinput)
      rw [hschema]
      exact hmap

theorem safe_executeInsert (env : Env) {stmt : InsertStatement}
    (hvalid : validateInsert stmt = .ok ()) (d : Str) (table : TableRuntime) (v : VersionStore) :
    (executeInsert env stmt d table v).Safe := by
  apply safe_bind (safe_insertColumnMap table.schema stmt.columnNames)
  intro map hmap
  rw [outcome_insertColumnMap] at hmap
  obtain ⟨hlen, hlt⟩ := insertColumnMap_ok hmap
  apply safe_insertRows env d _ hlt v
  intro input hinput
  exact (validateInsert_rows hvalid input hinput).trans hlen.symm

theorem safe_assignValues {as : List Assignment} {row : RowData}
    (hrow : row.values.length = schema.columns.length) : (assignValues schema as row).Safe := by
  induction as generalizing row with
  | nil => exact Safe.pure row
  | cons a as ih =>
      apply safe_findColumnIndex_bind
      cases hi : Catalog.findColumnIndex schema a.columnName with
      | none => exact Safe.lift _
      | some i =>
          have hlt : i < row.values.length := hrow ▸ findColumnIndex_lt hi
          apply safe_seq (safe_evaluateValueExpression hrow a.value)
          intro value
          apply safe_bind (Safe.deref rfl)
          intro j hj
          rw [outcome_deref, Result.ofOption_some] at hj
          cases hj
          apply safe_bind (Safe.write hlt value)
          intro vs hvs
          rw [outcome_write, if_pos hlt] at hvs
          cases hvs
          apply ih
          rw [List.length_set]
          exact hrow

theorem safe_updateRow (re : RegexMatch) (stmt : UpdateStatement) {row : RowData}
    (hrow : row.values.length = schema.columns.length) : (updateRow re schema stmt row).Safe := by
  apply safe_seq (safe_passes re hrow stmt.whereClause)
  intro pass
  apply Safe.ite
  · intro _
    apply safe_bind (safe_assignValues hrow)
    intro row' hrow'
    rw [outcome_assignValues] at hrow'
    apply safe_seq (safe_validateRowAgainstSchema ((assignValues_ok hrow').2.trans hrow))
    intro row''
    exact safe_seq (safe_eventRowId _ _) fun _ => Safe.pure _
  · intro _
    exact Safe.pure row

/-- What UPDATE makes of a table has rows of the same length. -/
theorem wide_updated {re : RegexMatch} {stmt : UpdateStatement} {rows rows' : List RowData}
    (h : Wide schema rows)
    (hrun : (rows.mapM' (updateRow re schema stmt)).outcome = .ok rows') : Wide schema rows' := by
  rw [Traced.outcome_mapM', mapM'_eq] at hrun
  intro row' hrow'
  obtain ⟨row, hrow, heq⟩ := (mem_of_mapList hrun).2 row' hrow'
  rw [outcome_updateRow] at heq
  obtain ⟨changed, hchanged, rfl⟩ := Result.map_eq_ok.mp heq
  cases changed with
  | none => exact h row hrow
  | some updated => exact (updateRow_ok hchanged).2.trans (h row hrow)

theorem safe_executeUpdate (env : Env) (stmt : UpdateStatement) {table : TableRuntime}
    (h : Wide table.schema table.heap.rows) : (executeUpdate env stmt table).Safe := by
  apply safe_bind
  · exact Safe.mapM' fun row hrow => safe_updateRow env.regexMatch stmt (h row hrow)
  · intro rows hrows
    exact safe_seq (safe_rebuildIndexes (wide_updated h hrows)) fun _ => Safe.pure ()

theorem safe_deleteRows (re : RegexMatch) (stmt : DeleteStatement) {rows : List RowData}
    (h : Wide schema rows) : (deleteRows re schema stmt rows).Safe := by
  induction rows with
  | nil => exact Safe.pure []
  | cons row rows ih =>
      have hrest := ih fun r hr => h r (List.mem_cons_of_mem _ hr)
      apply safe_seq (safe_passes re (h row (List.mem_cons_self ..)) stmt.whereClause)
      intro pass
      apply Safe.ite
      · intro _
        exact safe_seq (safe_eventRowId _ _) fun _ => hrest
      · intro _
        exact safe_seq hrest fun rest => Safe.pure _

theorem deleteRows_subset {re : RegexMatch} {stmt : DeleteStatement} {rows kept : List RowData}
    (h : (deleteRows re schema stmt rows).outcome = .ok kept) : ∀ row ∈ kept, row ∈ rows := by
  induction rows generalizing kept with
  | nil =>
      cases h
      exact fun _ hrow => hrow
  | cons row rows ih =>
      obtain ⟨pass, -, h⟩ := Result.bind_eq_ok.mp h
      rw [outcome_ite] at h
      intro r hr
      split at h
      · obtain ⟨_, -, h⟩ := Result.bind_eq_ok.mp h
        exact List.mem_cons_of_mem _ (ih h r hr)
      · obtain ⟨rest, hrest, h⟩ := Result.bind_eq_ok.mp h
        cases h
        rcases List.mem_cons.mp hr with rfl | hr
        · exact List.mem_cons_self ..
        · exact List.mem_cons_of_mem _ (ih hrest r hr)

theorem safe_executeDelete (env : Env) (stmt : DeleteStatement) {table : TableRuntime}
    (h : Wide table.schema table.heap.rows) : (executeDelete env stmt table).Safe := by
  apply safe_bind (safe_deleteRows env.regexMatch stmt h)
  intro rows hrows
  have hwide : Wide table.schema rows := fun row hrow => h row (deleteRows_subset hrows row hrow)
  exact safe_seq (safe_rebuildIndexes hwide) fun _ => Safe.pure ()

end Writes

/-! ## §4. SELECT. -/

section Reads

variable {schema : TableSchema} {rows : List RowData}

theorem safe_headingOf (item : SelectItem) (otherwise : Str) : (headingOf item otherwise).Safe := by
  apply Safe.ite
  · intro h
    exact Safe.deref h
  · intro _
    exact Safe.pure otherwise

/-- The column of an aggregate, where it is not `*`. -/
def AggregateColumn (schema : TableSchema) (item : SelectItem) (columnIndex : Option Nat) : Prop :=
  item.columnName = str "*" ∨ ∃ i, columnIndex = some i ∧ i < schema.columns.length

theorem aggregateColumn_found {item : SelectItem} {columnIndex : Option Nat}
    (h : (aggregateColumn schema item).outcome = .ok columnIndex) :
    AggregateColumn schema item columnIndex := by
  rw [aggregateColumn] at h
  by_cases hstar : item.columnName = str "*"
  · exact .inl hstar
  · rw [if_neg hstar, outcome_bind, outcome_findColumnIndex, Result.ok_bind] at h
    cases hi : Catalog.findColumnIndex schema item.columnName with
    | none =>
        rw [hi] at h
        cases h
    | some i =>
        rw [hi] at h
        cases h
        exact .inr ⟨i, rfl, findColumnIndex_lt hi⟩

theorem safe_aggregateColumn (item : SelectItem) : (aggregateColumn schema item).Safe := by
  apply Safe.ite
  · intro _
    exact Safe.pure none
  · intro _
    apply safe_findColumnIndex_bind
    cases Catalog.findColumnIndex schema item.columnName with
    | none => exact Safe.lift _
    | some i => exact Safe.pure _

/-- `row.values[*column_index]` in the loops of the aggregates. -/
theorem safe_aggregated {α : Type} {row : RowData} {i : Nat} {f : Value → Run α}
    (hrow : row.values.length = schema.columns.length) (hi : i < schema.columns.length)
    (hf : ∀ v, (f v).Safe) : (deref (some i) >>= fun i => read row.values i >>= f).Safe := by
  apply safe_bind (Safe.deref rfl)
  intro j hj
  rw [outcome_deref, Result.ofOption_some] at hj
  cases hj
  exact safe_seq (Safe.read (hrow ▸ hi)) hf

theorem safe_countStep {item : SelectItem} {columnIndex : Option Nat}
    (hcolumn : AggregateColumn schema item columnIndex) (count : Int64) {row : RowData}
    (hrow : row.values.length = schema.columns.length) :
    (countStep item columnIndex count row).Safe := by
  apply Safe.ite
  · intro _
    exact Safe.pure _
  · intro hstar
    rcases hcolumn with h | ⟨i, rfl, hi⟩
    · exact absurd h hstar
    · exact safe_aggregated hrow hi fun v => Safe.pure _

theorem safe_sumStep {i : Nat} (hi : i < schema.columns.length) (acc : Int64 × Int64)
    {row : RowData} (hrow : row.values.length = schema.columns.length) :
    (sumStep (some i) acc row).Safe := by
  apply safe_aggregated hrow hi
  intro v
  cases v with
  | null => exact Safe.pure acc
  | int n => exact Safe.pure _
  | string s => exact Safe.lift _

theorem safe_aggregateValue {item : SelectItem} (hkind : item.aggregate.isSome)
    {columnIndex : Option Nat} (hcolumn : AggregateColumn schema item columnIndex)
    (h : Wide schema rows) : (aggregateValue item columnIndex rows).Safe := by
  have hsum : (if item.columnName = str "*" then
      lift (.makeError .semanticError (str "SUM/AVG do not support wildcard '*'"))
    else do
      let acc ← rows.foldlM (sumStep columnIndex) (0, 0)
      let kind ← deref item.aggregate
      if kind = .sum then return .int acc.1
      else return if acc.2 = 0 then .null else .int (acc.1 / acc.2) : Run Value).Safe := by
    apply Safe.ite
    · intro _
      exact Safe.lift _
    · intro hstar
      rcases hcolumn with h' | ⟨i, rfl, hi⟩
      · exact absurd h' hstar
      · apply safe_seq
        · exact Safe.foldlM (I := fun _ => True)
            (fun acc _ row hrow => safe_sumStep hi acc (h row hrow))
            (fun _ _ _ _ _ _ => trivial) trivial
        · intro acc
          apply safe_seq (Safe.deref hkind)
          intro kind
          apply Safe.ite
          · intro _
            exact Safe.pure _
          · intro _
            exact Safe.pure _
  apply safe_seq (Safe.deref hkind)
  intro kind
  cases kind with
  | count =>
      apply safe_seq
      · exact Safe.foldlM (I := fun _ => True)
          (fun count _ row hrow => safe_countStep hcolumn count (h row hrow))
          (fun _ _ _ _ _ _ => trivial) trivial
      · intro count
        exact Safe.pure _
  | sum => exact hsum
  | avg => exact hsum

theorem safe_aggregateItem (h : Wide schema rows) (item : SelectItem) :
    (aggregateItem schema rows item).Safe := by
  apply Safe.ite
  · intro hkind
    apply safe_bind (safe_aggregateColumn item)
    intro columnIndex hfound
    apply safe_seq (safe_headingOf item _)
    intro _
    exact safe_aggregateValue hkind (aggregateColumn_found hfound) h
  · intro _
    exact Safe.lift _

theorem safe_projectItem {row : RowData} (hrow : row.values.length = schema.columns.length)
    (item : SelectItem) : (projectItem schema row item).Safe := by
  apply safe_columnIndexOr_bind
  intro i hi
  exact Safe.read (hrow ▸ findColumnIndex_lt hi)

theorem safe_isStar (items : List SelectItem) : (isStar items).Safe := by
  apply Safe.ite
  · intro hone
    exact safe_seq (Safe.read (hone ▸ Nat.one_pos)) fun item => Safe.pure _
  · intro _
    exact Safe.pure false

theorem safe_isAggregateQuery (items : List SelectItem) : (isAggregateQuery items).Safe := by
  apply Safe.ite
  · intro _
    exact Safe.pure false
  · intro hne
    exact safe_seq (Safe.read (List.length_pos_iff.mpr hne)) fun item => Safe.pure _

theorem safe_headings (items : List SelectItem) (first : Bool) : (headings items first).Safe := by
  apply Safe.ite
  · intro _
    exact Safe.mapM' fun item _ => safe_headingOf item item.columnName
  · intro _
    exact Safe.pure []

theorem safe_projectRow (items : List SelectItem) (first : Bool) {row : RowData}
    (hrow : row.values.length = schema.columns.length) :
    (projectRow schema items first row).Safe := by
  apply safe_seq (safe_isStar items)
  intro star
  apply Safe.ite
  · intro _
    exact Safe.pure row
  · intro _
    apply safe_seq (safe_headings items first)
    intro _
    apply safe_seq (Safe.mapM' fun item _ => safe_projectItem hrow item)
    intro vs
    exact Safe.pure _

theorem safe_projectRows (items : List SelectItem) (first : Bool) (h : Wide schema rows) :
    (projectRows schema items first rows).Safe := by
  induction rows generalizing first with
  | nil => exact Safe.pure []
  | cons row rows ih =>
      apply safe_seq (safe_projectRow items first (h row (List.mem_cons_self ..)))
      intro out
      apply safe_seq (ih false fun r hr => h r (List.mem_cons_of_mem _ hr))
      intro rest
      exact Safe.pure _

theorem safe_selectRows (items : List SelectItem) (h : Wide schema rows) :
    (selectRows schema items rows).Safe := by
  apply safe_seq (safe_isAggregateQuery items)
  intro isAggregate
  apply Safe.ite
  · intro _
    exact safe_seq (Safe.mapM' fun item _ => safe_aggregateItem h item) fun _ => Safe.pure ()
  · intro _
    exact safe_seq (safe_projectRows items true h) fun _ => Safe.pure ()

theorem safe_executeSelect (env : Env) (stmt : SelectStatement) {table : TableRuntime}
    (h : Wide table.schema table.heap.rows) : (executeSelect env stmt table).Safe := by
  apply safe_bind (safe_filterRows env.regexMatch h table.indexes)
  intro found hfound
  rw [outcome_filterRows] at hfound
  apply safe_selectRows
  exact fun row hrow => h row (filterRows_subset hfound row hrow)

/-! ## §5. REVERT. -/

theorem safe_applyRecord (m : Dict RowId RowData) (record : ChangeRecord) :
    (applyRecord m record).Safe := by
  have hafter : (if record.afterRow.isSome then do
      let key ← deref record.afterRow
      let row ← deref record.afterRow
      return m.assign key.rowId row
    else pure m : Run (Dict RowId RowData)).Safe := by
    apply Safe.ite
    · intro h
      apply safe_seq (Safe.deref h)
      intro key
      exact safe_seq (Safe.deref h) fun row => Safe.pure _
    · intro _
      exact Safe.pure m
  unfold applyRecord
  cases record.kind with
  | insertRow => exact hafter
  | updateRow => exact hafter
  | deleteRow =>
      apply Safe.ite
      · intro h
        exact safe_seq (Safe.deref h) fun row => Safe.pure _
      · intro _
        exact Safe.pure m
  | _ => exact Safe.pure _

theorem safe_reconstructTableStateAt (v : VersionStore) (d t ts : Str) :
    (reconstructTableStateAt v d t ts).Safe := by
  apply safe_seq
  · exact Safe.foldlM (I := fun _ => True) (fun m _ record _ => safe_applyRecord m record)
      (fun _ _ _ _ _ _ => trivial) trivial
  · intro m
    exact Safe.pure _

theorem safe_valuesEqualFrom {lhs rhs : List Value} (hlen : lhs.length = rhs.length)
    {is : List Nat} (h : ∀ i ∈ is, i < lhs.length) : (valuesEqualFrom lhs rhs is).Safe := by
  induction is with
  | nil => exact Safe.pure true
  | cons i is ih =>
      have hi : i < lhs.length := h i (List.mem_cons_self ..)
      apply safe_seq (Safe.read hi)
      intro a
      apply safe_seq (Safe.read (hlen ▸ hi))
      intro b
      apply Safe.ite
      · intro _
        exact Safe.pure false
      · intro _
        apply safe_seq (Safe.read hi)
        intro a
        apply safe_seq (Safe.read (hlen ▸ hi))
        intro b
        apply Safe.ite
        · intro _
          exact Safe.pure false
        · intro _
          exact ih fun j hj => h j (List.mem_cons_of_mem _ hj)

theorem safe_rowValuesEqual (lhs rhs : List Value) : (rowValuesEqual lhs rhs).Safe := by
  apply Safe.ite
  · intro _
    exact Safe.pure false
  · intro hlen
    exact safe_valuesEqualFrom (not_not.mp hlen) fun i hi => List.mem_range.mp hi

theorem safe_logRemoved (target : Dict RowId RowData) (p : RowId × RowData) :
    (logRemoved target p).Safe := by
  unfold logRemoved
  cases target.find? p.1 with
  | none => exact safe_seq (safe_eventRowId _ _) fun _ => Safe.pure ()
  | some row =>
      apply safe_seq (safe_rowValuesEqual _ _)
      intro same
      apply Safe.ite
      · intro _
        exact Safe.pure ()
      · intro _
        exact safe_seq (safe_eventRowId _ _) fun _ => Safe.pure ()

theorem safe_logRestored (current : Dict RowId RowData) (p : RowId × RowData) :
    (logRestored current p).Safe := by
  apply Safe.ite
  · intro _
    exact Safe.pure ()
  · intro _
    exact safe_seq (safe_eventRowId _ _) fun _ => Safe.pure ()

/-- Rows of another length end the statement at the shape check, so that the
rebuild sees rows of the table's length only. -/
theorem safe_executeRevert (stmt : RevertStatement) (d : Str) (table : TableRuntime)
    (v : VersionStore) : (executeRevert stmt d table v).Safe := by
  apply safe_seq (Safe.lift _)
  intro target
  apply Safe.ite
  · intro hsome
    apply safe_seq (Safe.deref hsome)
    intro timestamp
    apply safe_seq (safe_reconstructTableStateAt v d stmt.tableName.objectName timestamp)
    intro rows
    apply Safe.ite
    · intro _
      exact Safe.lift _
    · intro hshape
      have hwide : Wide table.schema rows := by
        intro row hrow
        by_contra hne
        apply hshape
        exact List.any_eq_true.mpr ⟨row, hrow, decide_eq_true hne⟩
      apply safe_seq (Safe.forM fun p _ => safe_logRemoved _ p)
      intro _
      apply safe_seq (Safe.forM fun p _ => safe_logRestored _ p)
      intro _
      exact safe_seq (safe_rebuildIndexes hwide) fun _ => Safe.pure ()
  · intro _
    exact Safe.lift _

/-! ## §6. CHECK INDEX and REBUILD INDEX. -/

theorem safe_isMismatch (found : List RowId) (row : RowData) : (isMismatch found row).Safe := by
  apply Safe.ite
  · intro _
    exact Safe.pure true
  · intro hone
    have hpos : 0 < found.length := by omega
    exact safe_seq (Safe.read hpos) fun id => Safe.pure _

theorem safe_validateIndexRows (path : Str) (tree : IndexTree) {i : Nat}
    (hi : i < schema.columns.length) (seenKeys : List Str) (h : Wide schema rows) :
    (validateIndexRows path schema tree (some i) seenKeys rows).Safe := by
  induction rows generalizing seenKeys with
  | nil => exact Safe.pure ()
  | cons row rows ih =>
      apply safe_aggregated (h row (List.mem_cons_self ..)) hi
      intro v
      apply safe_seq (safe_encodeAs hi v)
      intro key
      apply Safe.ite
      · intro _
        exact Safe.lift _
      · intro _
        apply safe_seq (Safe.lift _)
        intro found
        apply safe_seq (safe_isMismatch found row)
        intro mismatch
        apply Safe.ite
        · intro _
          exact Safe.lift _
        · intro _
          exact ih _ fun r hr => h r (List.mem_cons_of_mem _ hr)

end Reads

theorem safe_validateIndex (d t : Str) {table : TableRuntime}
    (h : Wide table.schema table.heap.rows) (n : Str) (tree : IndexTree) :
    (validateIndex d t table n tree).Safe := by
  apply Safe.ite
  · intro _
    exact Safe.lift _
  · intro _
    apply safe_findColumnIndex_bind
    cases hi : Catalog.findColumnIndex table.schema n with
    | none => exact Safe.lift _
    | some i => exact safe_validateIndexRows _ tree (findColumnIndex_lt hi) [] h

/-- Every table of a state has rows of its length. -/
theorem wide_of_stateOk {state : RuntimeState} (h : StateOk state)
    {d : Str × DatabaseRuntime} (hd : d ∈ state.databases.entries)
    {t : Str × TableRuntime} (ht : t ∈ d.2.tables.entries) : Wide t.2.schema t.2.heap.rows :=
  ((h d.1 d.2 (Dict.mem_entries_iff.mp hd)).tables t.1 t.2 (Dict.mem_entries_iff.mp ht)).shape

theorem safe_validateRuntimeIndexConsistency {state : RuntimeState} (h : StateOk state) :
    (validateRuntimeIndexConsistency state).Safe := by
  apply Safe.forM
  intro d hd
  apply Safe.forM
  intro t ht
  apply Safe.forM
  intro ix _
  exact safe_validateIndex d.1 t.1 (wide_of_stateOk h hd ht) ix.1 ix.2

theorem safe_rebuildRuntimeIndexes {state : RuntimeState} (h : StateOk state) :
    (rebuildRuntimeIndexes state).Safe := by
  apply safe_seq
  · apply Safe.forM
    intro d hd
    apply Safe.forM
    intro t ht
    have hwide := wide_of_stateOk h hd ht
    apply safe_seq
    · exact safe_indexRows (fun row hrow => safe_rebuildIndexEntry d.1 t.1 (hwide row hrow)) _
    · intro _
      exact Safe.pure ()
  · intro _
    obtain ⟨state', hrun, hok, -⟩ := rebuildRuntimeIndexes_ok h
    rw [hrun]
    exact safe_validateRuntimeIndexConsistency hok

/-! ## §7. Dispatch. -/

theorem safe_resolveDatabaseName (session : SessionContext) (requested : Option Str) :
    (resolveDatabaseName session requested).Safe := by
  apply Safe.ite
  · intro h
    exact Safe.deref h
  · intro _
    apply Safe.ite
    · intro _
      exact Safe.lift _
    · intro _
      exact Safe.pure _

/-- The preamble of the statements on one table. -/
theorem safe_withTable {s : Store} (h : StateOk s.runtime) (session : SessionContext)
    (name : QualifiedName) {f : Str → TableRuntime → VersionStore → Run Unit}
    (hf : ∀ d table, Wide table.schema table.heap.rows → (f d table s.versions).Safe) :
    (withTable s session name f).Safe := by
  apply safe_seq (safe_resolveDatabaseName session name.databaseName)
  intro db
  cases hdb : s.runtime.databases.find? db with
  | none => exact Safe.lift _
  | some d =>
      cases htable : d.tables.find? name.objectName with
      | none =>
          simp only [htable]
          exact Safe.lift _
      | some table =>
          simp only [htable]
          exact hf db table ((h db d hdb).tables name.objectName table htable).shape

theorem safe_executeCreateTable (s : Store) (session : SessionContext)
    (stmt : CreateTableStatement) : (executeCreateTable s session stmt).Safe := by
  apply safe_seq (safe_resolveDatabaseName session stmt.tableName.databaseName)
  intro db
  cases s.runtime.databases.find? db with
  | none => exact Safe.lift _
  | some d =>
      apply Safe.ite
      · intro _
        exact Safe.lift _
      · intro _
        apply Safe.forM
        intro col _
        apply Safe.ite
        · intro hdefault
          exact safe_seq (Safe.deref hdefault) fun _ => Safe.pure ()
        · intro _
          exact Safe.pure ()

/-- **In a state in step, every access of `Execute` is in range**, for every
statement the parser lets through. -/
theorem safe_execute (env : Env) {s : Store} (h : StateOk s.runtime) (session : SessionContext)
    {statement : Statement} (hvalid : validateStatement statement = .ok ()) (detail : Str) :
    (execute env s session statement detail).Safe := by
  cases statement with
  | createTable stmt => exact safe_executeCreateTable s session stmt
  | dropTable name => exact safe_withTable h session name fun _ _ _ => Safe.pure ()
  | insert stmt =>
      exact safe_withTable h session stmt.tableName fun d table _ =>
        safe_executeInsert env hvalid d table s.versions
  | update stmt =>
      exact safe_withTable h session stmt.tableName fun _ _ hwide =>
        safe_executeUpdate env stmt hwide
  | delete stmt =>
      exact safe_withTable h session stmt.tableName fun _ _ hwide =>
        safe_executeDelete env stmt hwide
  | select stmt =>
      exact safe_withTable h session stmt.tableName fun _ _ hwide =>
        safe_executeSelect env stmt hwide
  | revert stmt =>
      exact safe_withTable h session stmt.tableName fun d table _ =>
        safe_executeRevert stmt d table s.versions
  | checkIndex => exact safe_validateRuntimeIndexConsistency h
  | rebuildIndex => exact safe_rebuildRuntimeIndexes h
  | _ => exact Safe.lift _

end CustomDbms.Execution.Accesses
