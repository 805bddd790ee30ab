/-
  CustomDbms.Execution.WhereErrors
  ────────────────────────────────
  **WHERE CLAUSES THAT THROW.**

  Two operations under a WHERE clause are partial: `std::regex` on the pattern
  of a LIKE, and `std::get` in `EncodeIndexKey`, which `FilterRows` calls on
  the literal before anything has looked at its type.  Everything else is
  checked first.  So a clause throws on a row exactly where the evaluation
  gets to a LIKE with a malformed pattern (`badPattern`), and the index path
  throws exactly on a literal without a key in the column (`mistypedKey`).

    • `evaluatePredicate_eq_fault` — one row;
    • `executeSelect_eq_fault`, `executeUpdate_eq_fault`,
      `executeDelete_eq_fault` — the statements that have a clause;
    • `evaluatePredicate_mistyped` — what a comparison of a column with a
      literal of another type evaluates to.
-/
import CustomDbms.Execution.IndexPath
import CustomDbms.Execution.SchemaConformance
import CustomDbms.Parser.WhereLiterals

namespace CustomDbms.Execution

open CustomDbms.Common CustomDbms.Catalog CustomDbms.Core CustomDbms.Index CustomDbms.Lib
open CustomDbms.Parser CustomDbms.Storage CustomDbms.Versioning

/-! ## §1. One row. -/

/-- The text and the pattern of a LIKE whose operands are both strings. -/
def likeOperands (schema : TableSchema) (row : RowData) (value pattern : Expression) :
    Option (Str × Str) :=
  match evaluateValueExpression value schema row, evaluateValueExpression pattern schema row with
  | .ok (.string text), .ok (.string pattern) => some (text, pattern)
  | _, _ => none

/-- **The evaluation gets to a LIKE whose pattern `std::regex` rejects.**  The
left side of AND and OR comes first, and only an error in it keeps the right
side from being evaluated. -/
def badPattern (re : RegexMatch) (schema : TableSchema) (row : RowData) : Expression → Bool
  | .logical _ left right =>
      badPattern re schema row left ||
        ((evaluatePredicate re schema row left).isOk && badPattern re schema row right)
  | .like value pattern =>
      (likeOperands schema row value pattern).any fun p => (re p.2 p.1).isNone
  | _ => false

section Row

variable {re : RegexMatch} {schema : TableSchema} {row : RowData}

/-- A scalar of a row that has a value for each column never throws. -/
theorem evaluateValueExpression_ne_fault (hlen : row.values.length = schema.columns.length)
    (expr : Expression) : evaluateValueExpression expr schema row ≠ .fault := by
  cases expr with
  | columnReference database table column =>
      rw [evaluateValueExpression]
      cases hi : findColumnIndex schema column with
      | none => exact Result.makeError_ne_fault _ _
      | some i =>
          have hlt : i < row.values.length := hlen ▸ findColumnIndex_lt hi
          simp [List.getElem?_eq_getElem hlt]
  | literal v => simp [evaluateValueExpression]
  | _ => exact Result.makeError_ne_fault _ _

theorem operand_eq_ok {α : Type} {r : Result α} (h : r ≠ .fault) :
    ∃ o, operand r = .ok o ∧ ∀ a, o = some a ↔ r = .ok a := by
  cases r with
  | ok a => exact ⟨some a, rfl, by simp⟩
  | error e => exact ⟨none, rfl, by simp⟩
  | fault => exact absurd rfl h

theorem evaluateBetween_ne_fault (v lo hi : Option Value) : evaluateBetween v lo hi ≠ .fault := by
  unfold evaluateBetween
  split
  · split
    · exact Result.makeError_ne_fault _ _
    · rename_i v lo hi htypes
      rw [not_or, not_not, not_not] at htypes
      obtain ⟨c1, h1⟩ := Option.isSome_iff_exists.mp (compareValues_isSome htypes.1)
      obtain ⟨c2, h2⟩ := Option.isSome_iff_exists.mp (compareValues_isSome htypes.2)
      simp [h1, h2]
  · exact Result.makeError_ne_fault _ _

theorem evaluateLike_eq_fault {v p : Option Value} :
    evaluateLike re v p = .fault ↔
      ∃ text pattern, v = some (.string text) ∧ p = some (.string pattern) ∧
        re pattern text = none := by
  unfold evaluateLike
  split
  · split
    · rename_i text pattern
      simp [Result.ofOption_eq_fault]
    · rename_i v p hne
      constructor
      · intro h
        exact absurd h (Result.makeError_ne_fault _ _)
      · rintro ⟨text, pattern, hv, hp, -⟩
        exact absurd (Option.some.inj hp) (hne text pattern (Option.some.inj hv))
  · rename_i hne
    constructor
    · intro h
      exact absurd h (Result.makeError_ne_fault _ _)
    · rintro ⟨text, pattern, rfl, rfl, -⟩
      exact absurd rfl (hne _ _ rfl)

theorem likeOperands_eq_some {value pattern : Expression} {text p : Str} :
    likeOperands schema row value pattern = some (text, p) ↔
      evaluateValueExpression value schema row = .ok (.string text) ∧
        evaluateValueExpression pattern schema row = .ok (.string p) := by
  unfold likeOperands
  split
  · rename_i text' p' hv hp
    simp [hv, hp]
  · rename_i hne
    constructor
    · intro h
      cases h
    · rintro ⟨hv, hp⟩
      exact absurd hp (hne _ _ hv)

/-- **When the evaluation of a clause on a row throws.** -/
theorem evaluatePredicate_eq_fault (hlen : row.values.length = schema.columns.length)
    (expr : Expression) :
    evaluatePredicate re schema row expr = .fault ↔ badPattern re schema row expr = true := by
  have hscalar : ∀ e, evaluateValueExpression e schema row ≠ .fault :=
    evaluateValueExpression_ne_fault hlen
  -- a clause that is a scalar
  have hvalue : ∀ e : Expression, ((evaluateValueExpression e schema row) >>= fun v =>
      (pure (truthy v) : Result Bool)) ≠ .fault := by
    intro e h
    rcases Result.bind_eq_fault.mp h with h | ⟨v, -, h⟩
    · exact hscalar e h
    · cases h
  induction expr with
  | logical op left right ihl ihr =>
      rw [evaluatePredicate, Result.bind_eq_fault, badPattern, Bool.or_eq_true]
      refine or_congr ihl ?_
      cases hl : evaluatePredicate re schema row left with
      | error e => simp [Result.isOk]
      | fault => simp [Result.isOk]
      | ok b =>
          simp only [Result.isOk, Bool.true_and, Result.ok.injEq, exists_eq_left']
          refine Iff.trans ?_ ihr
          rw [Result.bind_eq_fault]
          simp
  | binaryComparison op left right =>
      rw [evaluatePredicate]
      refine iff_of_false ?_ (by simp [badPattern])
      intro h
      rcases Result.bind_eq_fault.mp h with h | ⟨l, -, h⟩
      · exact hscalar left h
      rcases Result.bind_eq_fault.mp h with h | ⟨r, -, h⟩
      · exact hscalar right h
      split at h
      · cases h
      · rename_i htypes
        obtain ⟨c, hc⟩ := Option.isSome_iff_exists.mp (compareValues_isSome (not_not.mp htypes))
        rw [hc] at h
        cases h
  | between value lower upper =>
      obtain ⟨v, hv, -⟩ := operand_eq_ok (hscalar value)
      obtain ⟨lo, hlo, -⟩ := operand_eq_ok (hscalar lower)
      obtain ⟨hi, hhi, -⟩ := operand_eq_ok (hscalar upper)
      rw [evaluatePredicate, hv, hlo, hhi]
      exact iff_of_false (evaluateBetween_ne_fault v lo hi) (by simp [badPattern])
  | like value pattern =>
      obtain ⟨v, hv, hv'⟩ := operand_eq_ok (hscalar value)
      obtain ⟨p, hp, hp'⟩ := operand_eq_ok (hscalar pattern)
      rw [evaluatePredicate, badPattern, hv, hp, Result.ok_bind, Result.ok_bind,
        evaluateLike_eq_fault, Option.any_eq_true]
      simp only [hv', hp', Prod.exists, likeOperands_eq_some, Option.isNone_iff_eq_none, and_assoc]
  | literal v => exact iff_of_false (hvalue (.literal v)) (by simp [badPattern])
  | columnReference database table column =>
      exact iff_of_false (hvalue (.columnReference database table column)) (by simp [badPattern])
  | aggregateCall kind column =>
      exact iff_of_false (hvalue (.aggregateCall kind column)) (by simp [badPattern])

end Row

/-- A clause that throws on a row. -/
def badClause (re : RegexMatch) (schema : TableSchema) (clause : Option Expression)
    (row : RowData) : Bool :=
  clause.any (badPattern re schema row)

theorem passes_eq_fault {re : RegexMatch} {schema : TableSchema} {row : RowData}
    (hlen : row.values.length = schema.columns.length) (clause : Option Expression) :
    passes re schema clause row = .fault ↔ badClause re schema clause row = true := by
  cases clause with
  | none => simp [passes, badClause]
  | some expr => exact evaluatePredicate_eq_fault hlen expr

/-! ## §2. The rows of a table. -/

/-- **A loop over rows gets to a bad one**, all rows before it letting it go
on. -/
def reaches (bad goesOn : RowData → Bool) : List RowData → Bool
  | [] => false
  | row :: rows => bad row || (goesOn row && reaches bad goesOn rows)

section Filter

variable {re : RegexMatch} {schema : TableSchema} {clause : Option Expression}
variable {rows : List RowData}

/-- The scan of `FilterRows`. -/
theorem filterScan_eq_fault
    (hshape : ∀ row ∈ rows, row.values.length = schema.columns.length) :
    filterScan re schema clause rows = .fault ↔
      reaches (badClause re schema clause) (fun row => (passes re schema clause row).isOk) rows
        = true := by
  induction rows with
  | nil => simp [filterScan, reaches]
  | cons row rows ih =>
      have ih := ih fun r hr => hshape r (by simp [hr])
      rw [filterScan, Result.bind_eq_fault, reaches, Bool.or_eq_true, Bool.and_eq_true, ← ih]
      refine or_congr (passes_eq_fault (hshape row (by simp)) clause) ?_
      cases hpass : passes re schema clause row with
      | error e => simp [Result.isOk]
      | fault => simp [Result.isOk]
      | ok b => simp [Result.isOk, Result.bind_eq_fault]

theorem filterCandidates_ne_fault (h : ∀ row ∈ rows, passes re schema clause row ≠ .fault)
    (ids : List RowId) : filterCandidates re schema clause rows ids ≠ .fault := by
  induction ids with
  | nil => simp [filterCandidates]
  | cons i ids ih =>
      rw [filterCandidates]
      split
      · exact ih
      · rename_i row hfind
        refine Result.bind_ne_fault (h row (List.mem_of_find?_eq_some hfind)) fun b _ => ?_
        exact Result.bind_ne_fault ih fun rest _ => by simp

/-- What a filter returns are rows of the table. -/
theorem filterScan_subset {found : List RowData}
    (h : filterScan re schema clause rows = .ok found) : ∀ row ∈ found, row ∈ rows := by
  induction rows generalizing found with
  | nil => cases h; simp
  | cons row rows ih =>
      obtain ⟨b, -, h⟩ := Result.bind_eq_ok.mp h
      obtain ⟨rest, hrest, h⟩ := Result.bind_eq_ok.mp h
      cases h
      intro r hr
      by_cases hb : b = true
      · rw [if_pos hb] at hr
        rcases List.mem_cons.mp hr with rfl | hr
        · simp
        · exact List.mem_cons_of_mem _ (ih hrest r hr)
      · rw [if_neg hb] at hr
        exact List.mem_cons_of_mem _ (ih hrest r hr)

theorem filterCandidates_subset {ids : List RowId} {found : List RowData}
    (h : filterCandidates re schema clause rows ids = .ok found) : ∀ row ∈ found, row ∈ rows := by
  induction ids generalizing found with
  | nil => cases h; simp
  | cons i ids ih =>
      rw [filterCandidates] at h
      split at h
      · exact ih h
      · rename_i row hfind
        obtain ⟨b, -, h⟩ := Result.bind_eq_ok.mp h
        obtain ⟨rest, hrest, h⟩ := Result.bind_eq_ok.mp h
        cases h
        intro r hr
        by_cases hb : b = true
        · rw [if_pos hb] at hr
          rcases List.mem_cons.mp hr with rfl | hr
          · exact List.mem_of_find?_eq_some hfind
          · exact ih hrest r hr
        · rw [if_neg hb] at hr
          exact ih hrest r hr

end Filter

/-! ## §3. The index path. -/

/-- The column and the literals of a clause that has an index path. -/
def indexLiterals : Expression → Option (Str × List Value)
  | .binaryComparison _ (.columnReference _ _ column) (.literal v) => some (column, [v])
  | .between (.columnReference _ _ column) (.literal lower) (.literal upper) =>
      some (column, [lower, upper])
  | _ => none

/-- **A literal for which `EncodeIndexKey` throws**: the clause takes the index
of its column, and a literal of it is an integer in a column of strings or a
string in a column of integers. -/
def mistypedKey (schema : TableSchema) (clause : Option Expression) : Bool :=
  (clause.bind indexLiterals).any fun p =>
    ((findColumnIndex schema p.1).bind fun i => schema.columns[i]?).any fun c =>
      decide (c.constraint = .indexed) && p.2.any fun v => (encodeIndexKey v c.type).isNone

section Index

variable {d t : Str} {table : TableRuntime}

/-- A table has trees for its INDEXED columns and for no others. -/
theorem find_index_isSome (htab : TableOk d t table) {column : Str} {i : Nat}
    {c : Catalog.ColumnDefinition} (hi : findColumnIndex table.schema column = some i)
    (hc : table.schema.columns[i]? = some c) :
    (table.indexes.find? column).isSome ↔ c.constraint = .indexed := by
  have hname : c.name = column := by
    obtain ⟨hlt, hp, -⟩ := List.findIdx?_eq_some_iff_getElem.mp hi
    obtain ⟨_, hci⟩ := List.getElem?_eq_some_iff.mp hc
    rw [hci] at hp
    simpa using hp
  subst hname
  constructor
  · intro hsome
    obtain ⟨tree, htree⟩ := Option.isSome_iff_exists.mp hsome
    have hkey : c.name ∈ indexedColumns table.schema :=
      htab.keys ▸ Dict.mem_keys_iff.mpr ⟨tree, htree⟩
    rw [htab.schema.indexedColumns_eq] at hkey
    obtain ⟨c', hc', heq⟩ := List.mem_map.mp hkey
    obtain ⟨hmem, hidx⟩ := List.mem_filter.mp hc'
    obtain ⟨j, hj⟩ := List.mem_iff_getElem?.mp hmem
    have hij := htab.schema.findColumnIndex_eq hj
    rw [heq, hi] at hij
    cases hij
    rw [hc] at hj
    cases hj
    simpa using hidx
  · intro hidx
    obtain ⟨tree, htree, -⟩ := indexed_column htab hc hidx
    rw [htree]
    rfl

/-- The lookup in the tree of one column, for a body that throws where a
literal has no key. -/
theorem columnLookup_eq_fault (htab : TableOk d t table) {column : Str} (vs : List Value)
    {f : IndexTree → Catalog.ColumnDefinition → Result (Option (List RowId))}
    (hf : ∀ tree c, IndexOk table.schema table.heap.rows column tree →
      (f tree c = .fault ↔ (vs.any fun v => (encodeIndexKey v c.type).isNone) = true)) :
    (match findColumnIndex table.schema column, table.indexes.find? column with
      | some i, some tree => do
          let c ← Result.ofOption table.schema.columns[i]?
          f tree c
      | _, _ => .ok none) = .fault ↔
      (((findColumnIndex table.schema column).bind fun i => table.schema.columns[i]?).any fun c =>
        decide (c.constraint = .indexed) &&
          vs.any fun v => (encodeIndexKey v c.type).isNone) = true := by
  cases hi : findColumnIndex table.schema column with
  | none => simp
  | some i =>
      obtain ⟨c, hc⟩ : ∃ c, table.schema.columns[i]? = some c :=
        ⟨_, List.getElem?_eq_getElem (findColumnIndex_lt hi)⟩
      have hsome := find_index_isSome htab hi hc
      cases htree : table.indexes.find? column with
      | none =>
          rw [htree] at hsome
          have hnot : c.constraint ≠ .indexed := fun h => absurd (hsome.mpr h) (by simp)
          simp [hc, hnot]
      | some tree =>
          rw [htree] at hsome
          have hidx : c.constraint = .indexed := hsome.mp rfl
          have hix := htab.indexes column tree (Dict.mem_entries_iff.mpr htree)
          simp only [hc, Result.ofOption_some, Result.ok_bind, Option.bind_some, Option.any_some,
            hidx, decide_true, Bool.true_and]
          exact hf tree c hix

/-- **When the index lookup throws.** -/
theorem indexCandidates_eq_fault (htab : TableOk d t table) (clause : Option Expression) :
    indexCandidates table.schema table.indexes clause = .fault ↔
      mistypedKey table.schema clause = true := by
  have hnodup := htab.heap.ordered.nodup
  unfold indexCandidates
  split
  · -- `column op literal`
    rename_i op database tbl column v
    apply columnLookup_eq_fault htab [v]
    intro tree c hix
    cases hk : encodeIndexKey v c.type with
    | none => simp [hk]
    | some k =>
        refine iff_of_false ?_ (by simp [hk])
        rcases comparisonCandidates_spec hix hnodup op k with ⟨-, h⟩ | ⟨ids, h, -⟩
        · simp [h]
        · simp [h]
  · -- `column BETWEEN literal AND literal`
    rename_i database tbl column lower upper
    apply columnLookup_eq_fault htab [lower, upper]
    intro tree c hix
    cases hl : encodeIndexKey lower c.type with
    | none => simp [hl]
    | some lk =>
        cases hu : encodeIndexKey upper c.type with
        | none => simp [hu]
        | some uk =>
            obtain ⟨ids, hscan, -⟩ := scanRowIds_spec hix hnodup lk uk
            refine iff_of_false ?_ (by simp [hl, hu])
            simp only [Result.ofOption_some, Result.ok_bind, hscan]
            intro h
            cases h
  · -- no index path
    rename_i hcomparison hbetween
    refine iff_of_false (by simp) ?_
    have hnone : clause.bind indexLiterals = none := by
      cases clause with
      | none => rfl
      | some expr =>
          show indexLiterals expr = none
          unfold indexLiterals
          split
          · exact absurd rfl (hcomparison _ _ _ _ _)
          · exact absurd rfl (hbetween _ _ _ _ _)
          · rfl
    simp [mistypedKey, hnone]

/-- A clause with an index path has no LIKE in it. -/
theorem badClause_of_index (re : RegexMatch) {clause : Option Expression} {ids : List RowId}
    (h : indexCandidates table.schema table.indexes clause = .ok (some ids)) (row : RowData) :
    badClause re table.schema clause row = false := by
  unfold indexCandidates at h
  split at h
  · rfl
  · rfl
  · cases h

/-- The lookup returns no error of its own. -/
theorem indexCandidates_ne_error (clause : Option Expression) (err : Error) :
    indexCandidates table.schema table.indexes clause ≠ .error err := by
  have hbind : ∀ {α β : Type} {o : Option α} {f : α → Result β}, (∀ a, f a ≠ .error err) →
      (Result.ofOption o >>= f) ≠ .error err := by
    intro α β o f hf
    cases o with
    | none => simp
    | some a => exact hf a
  have hscan : ∀ (tree : IndexTree) (lower upper : Str),
      some <$> scanRowIds tree lower upper ≠ .error err := by
    intro tree lower upper
    show (scanRowIds tree lower upper).map some ≠ .error err
    unfold scanRowIds
    cases tree.rangeScan lower upper <;> simp [Result.map]
  have hfind : ∀ (tree : IndexTree) (key : Str),
      some <$> Result.ofOption (tree.find key) ≠ .error err := by
    intro tree key
    show (Result.ofOption (tree.find key)).map some ≠ .error err
    cases tree.find key <;> simp [Result.map]
  unfold indexCandidates
  split
  · split
    · refine hbind fun c => hbind fun key => ?_
      unfold comparisonCandidates
      split
      · exact hfind _ _
      · exact hscan _ _ _
      · exact hscan _ _ _
      · exact hscan _ _ _
      · exact hscan _ _ _
      · simp
    · simp
  · split
    · exact hbind fun c => hbind fun lower => hbind fun upper => hscan _ _ _
    · simp
  · simp

theorem reaches_of_not_bad {bad goesOn : RowData → Bool} {rows : List RowData}
    (h : ∀ row ∈ rows, bad row = false) : reaches bad goesOn rows = false := by
  induction rows with
  | nil => rfl
  | cons row rows ih =>
      rw [reaches, h row (by simp), ih fun r hr => h r (by simp [hr])]
      simp

/-- **When `FilterRows` throws.** -/
theorem filterRows_eq_fault {re : RegexMatch} (htab : TableOk d t table)
    (clause : Option Expression) :
    filterRows re table.heap.rows clause table.schema table.indexes = .fault ↔
      (mistypedKey table.schema clause ||
        reaches (badClause re table.schema clause)
          (fun row => (passes re table.schema clause row).isOk) table.heap.rows) = true := by
  rw [filterRows, Result.bind_eq_fault, indexCandidates_eq_fault htab, Bool.or_eq_true]
  refine or_congr_right' fun hkey => ?_
  have hscan : filterScan re table.schema clause table.heap.rows = .fault ↔ _ :=
    filterScan_eq_fault htab.shape
  cases hix : indexCandidates table.schema table.indexes clause with
  | error err => exact absurd hix (indexCandidates_ne_error clause err)
  | fault => exact absurd ((indexCandidates_eq_fault htab clause).mp hix) hkey
  | ok candidates =>
      cases candidates with
      | none =>
          rw [← hscan]
          simp [Result.bind_eq_fault]
      | some ids =>
          have hbad := badClause_of_index re hix
          rw [reaches_of_not_bad fun row _ => hbad row]
          have hpass : ∀ row ∈ table.heap.rows, passes re table.schema clause row ≠ .fault := by
            intro row hrow h
            rw [passes_eq_fault (htab.shape row hrow), hbad row] at h
            cases h
          have hids := filterCandidates_ne_fault hpass ids
          simp [Result.bind_eq_fault, hids]

/-- What `FilterRows` returns are rows of the table. -/
theorem filterRows_subset {re : RegexMatch} {clause : Option Expression}
    {rows : List RowData} {r : List RowData × Bool}
    (h : filterRows re rows clause table.schema table.indexes = .ok r) :
    ∀ row ∈ r.1, row ∈ rows := by
  obtain ⟨candidates, -, h⟩ := Result.bind_eq_ok.mp h
  cases candidates with
  | none =>
      obtain ⟨found, hfound, h⟩ := Result.bind_eq_ok.mp h
      cases h
      exact filterScan_subset hfound
  | some ids =>
      obtain ⟨found, hfound, h⟩ := Result.bind_eq_ok.mp h
      cases h
      exact filterCandidates_subset hfound

end Index

/-! ## §4. SELECT. -/

section Select

variable {schema : TableSchema} {rows : List RowData}

theorem selectColumn_cases (schema : TableSchema) (name : Str) :
    selectColumn schema name ≠ .fault ∧
      ∀ i, selectColumn schema name = .ok i → i < schema.columns.length := by
  unfold selectColumn
  cases hi : findColumnIndex schema name with
  | none => exact ⟨Result.makeError_ne_fault _ _, fun i h => by cases h⟩
  | some i =>
      refine ⟨by simp, fun j h => ?_⟩
      cases h
      exact findColumnIndex_lt hi

theorem aggregateValue_ne_fault (kind : AggregateKind) {columnIndex : Option Nat}
    (hindex : ∀ i ∈ columnIndex, ∀ row ∈ rows, i < row.values.length) :
    aggregateValue kind columnIndex rows ≠ .fault := by
  have hsum : ∀ i, i ∈ columnIndex → ∀ acc, Result.foldList (sumStep i) acc rows ≠ .fault := by
    intro i hi acc
    refine Result.foldList_ne_fault (fun acc row hrow => ?_) acc
    rw [sumStep, List.getElem?_eq_getElem (hindex i hi row hrow)]
    simp only [Result.ofOption_some, Result.ok_bind]
    split
    · simp
    · simp
    · exact Result.makeError_ne_fault _ _
  unfold aggregateValue
  split
  · refine Result.bind_ne_fault (Result.foldList_ne_fault (fun n row hrow => ?_) 0) (by simp)
    unfold countStep
    split
    · simp
    · rename_i i
      rw [List.getElem?_eq_getElem (hindex i rfl row hrow)]
      simp
  · exact Result.makeError_ne_fault _ _
  · exact Result.bind_ne_fault (hsum _ rfl _) (by simp)
  · exact Result.bind_ne_fault (hsum _ rfl _) (by simp)

/-- **The list of a SELECT never throws** on rows with a value for each
column. -/
theorem selectRows_ne_fault (hshape : ∀ row ∈ rows, row.values.length = schema.columns.length)
    (items : List SelectItem) : selectRows schema items rows ≠ .fault := by
  unfold selectRows
  split
  · refine Result.bind_ne_fault (Result.mapList_ne_fault fun item _ => ?_) (by simp)
    unfold aggregateItem
    split
    · exact Result.makeError_ne_fault _ _
    · rename_i kind _
      split
      · exact aggregateValue_ne_fault kind (by simp)
      · obtain ⟨hcol, hlt⟩ := selectColumn_cases schema item.columnName
        refine Result.bind_ne_fault hcol fun i hi => aggregateValue_ne_fault kind ?_
        intro j hj row hrow
        cases hj
        rw [hshape row hrow]
        exact hlt i hi
  · refine Result.bind_ne_fault (Result.mapList_ne_fault fun row hrow => ?_) (by simp)
    unfold projectRow
    split
    · simp
    · refine Result.bind_ne_fault (Result.mapList_ne_fault fun item _ => ?_) (by simp)
      obtain ⟨hcol, hlt⟩ := selectColumn_cases schema item.columnName
      refine Result.bind_ne_fault hcol fun i hi => ?_
      have hi' : i < row.values.length := hshape row hrow ▸ hlt i hi
      rw [List.getElem?_eq_getElem hi']
      simp

end Select

/-- **When SELECT throws.** -/
theorem executeSelect_eq_fault {env : Env} {stmt : SelectStatement} {d t : Str}
    {table : TableRuntime} (htab : TableOk d t table) :
    executeSelect env stmt table = .fault ↔
      (mistypedKey table.schema stmt.whereClause ||
        reaches (badClause env.regexMatch table.schema stmt.whereClause)
          (fun row => (passes env.regexMatch table.schema stmt.whereClause row).isOk)
          table.heap.rows) = true := by
  rw [executeSelect, Result.bind_eq_fault, TableHeap.scanAll, filterRows_eq_fault htab]
  refine or_iff_left ?_
  rintro ⟨r, hr, h⟩
  refine selectRows_ne_fault (fun row hrow => ?_) stmt.items h
  exact htab.shape row (filterRows_subset hr row hrow)

/-! ## §5. Rebuilding the indexes. -/

section Rebuild

variable {schema : TableSchema} {row : RowData} {n : Str}

/-- A row that fits has a key for its value or NULL, so it goes into a tree or
is turned down. -/
theorem checkedIndexEntry_ne_fault (hfit : Fits schema row) {rows : List RowData}
    {tree : IndexTree} (h : IndexOk schema rows n tree) :
    checkedIndexEntry schema row n tree ≠ .fault := by
  rw [checkedIndexEntry]
  cases hi : findColumnIndex schema n with
  | none => exact Result.makeError_ne_fault _ _
  | some i =>
      have hlt := findColumnIndex_lt hi
      obtain ⟨c, hc⟩ : ∃ c, schema.columns[i]? = some c := ⟨_, List.getElem?_eq_getElem hlt⟩
      obtain ⟨v, hv⟩ : ∃ v, row.values[i]? = some v :=
        ⟨_, List.getElem?_eq_getElem (hfit.length ▸ hlt)⟩
      refine Result.bind_ne_fault ?_ fun key hkey => ?_
      · rw [freshIndexKey, columnValue_eq_ok.mpr ⟨hv, hc⟩, Result.ok_bind]
        dsimp only
        split
        · exact Result.makeError_ne_fault _ _
        · rename_i hnull
          have htype : getValueType v = c.type := by
            rcases typed_of_canAssign (hfit.values i c v hc hv) with h | ⟨rfl, -⟩
            · exact h
            · exact absurd rfl hnull
          obtain ⟨key, hkey⟩ :=
            Option.isSome_iff_exists.mp (encodeIndexKey_isSome (Or.inr htype))
          rw [hkey, Result.ofOption_some, Result.ok_bind, h.find key, Result.ofOption_some,
            Result.ok_bind]
          split
          · simp
          · exact Result.makeError_ne_fault _ _
      · obtain ⟨hk, hfind⟩ := freshIndexKey_ok hi hkey
        obtain ⟨tree', hins, -⟩ := h.insert hk (IndexOk.key_new h hfind)
        rw [hins]
        simp

theorem updateEntries_ne_fault {f : Str → IndexTree → Result IndexTree}
    {l : List (Str × IndexTree)} (h : ∀ n tree, (n, tree) ∈ l → f n tree ≠ .fault) :
    (updateEntries f l).2 ≠ .fault := by
  induction l with
  | nil => simp [updateEntries]
  | cons p l ih =>
      rw [updateEntries]
      cases hf : f p.1 p.2 with
      | ok tree => exact ih fun n tree hmem => h n tree (List.mem_cons_of_mem _ hmem)
      | error e => simp
      | fault => exact absurd hf (h p.1 p.2 (List.mem_cons_self ..))

/-- The loop over the rows, by induction with the trees built so far. -/
theorem indexRows_ne_fault {rows rows' : List RowData} (hfit : ∀ row ∈ rows', Fits schema row)
    {indexes : Dict Str IndexTree} (h : IndexesOk schema rows indexes) :
    (indexRows (checkedIndexEntry schema) indexes rows').2 ≠ .fault := by
  induction rows' generalizing rows indexes with
  | nil => simp [indexRows]
  | cons row rows' ih =>
      have hstep : (updateIndexes (checkedIndexEntry schema row) indexes).2 ≠ .fault :=
        updateEntries_ne_fault fun n tree hmem =>
          checkedIndexEntry_ne_fault (hfit row (by simp)) (h n tree hmem)
      rw [indexRows]
      rcases hu : updateIndexes (checkedIndexEntry schema row) indexes with ⟨ix, res⟩
      rw [hu] at hstep
      cases res with
      | ok u =>
          exact ih (fun r hr => hfit r (by simp [hr]))
            (h.update (fun _ _ _ hix => checkedIndexEntry_ok hix) hu)
      | error e => simp
      | fault => exact absurd rfl hstep

/-- **Rows that fit can be put in place of others** without an exception. -/
theorem replaceRows_ne_fault {table : TableRuntime} (v : VersionStore) {rows : List RowData}
    (hfit : ∀ row ∈ rows, Fits table.schema row) (message : Str) :
    (replaceRows table v rows message).2.2 ≠ .fault := by
  have hrebuild : rebuildIndexes table.schema rows ≠ .fault := by
    have hloop := indexRows_ne_fault hfit (indexesOk_empty table.schema)
    unfold rebuildIndexes
    rcases hrun : indexRows (checkedIndexEntry table.schema) (emptyIndexes table.schema) rows
      with ⟨ix, res⟩
    rw [hrun] at hloop
    cases res with
    | ok u => simp
    | error e => simp
    | fault => exact absurd rfl hloop
  unfold replaceRows
  cases hres : rebuildIndexes table.schema rows with
  | ok ix => simp
  | error e => simp
  | fault => exact absurd hres hrebuild

end Rebuild

/-! ## §6. UPDATE, DELETE, INSERT and REVERT. -/

section Writes

variable {env : Env} {d t : Str} {table : TableRuntime} {v : VersionStore}

theorem assignValues_ne_fault {schema : TableSchema} {row : RowData}
    (hlen : row.values.length = schema.columns.length) (as : List Assignment) :
    assignValues schema as row ≠ .fault := by
  induction as generalizing row with
  | nil => simp [assignValues]
  | cons a as ih =>
      rw [assignValues]
      cases hi : findColumnIndex schema a.columnName with
      | none => exact Result.makeError_ne_fault _ _
      | some i =>
          refine Result.bind_ne_fault (evaluateValueExpression_ne_fault hlen a.value) fun v _ => ?_
          rw [if_pos (hlen ▸ findColumnIndex_lt hi)]
          exact ih (by simpa using hlen)

/-- **When UPDATE throws on a row.** -/
theorem updateRow_eq_fault {re : RegexMatch} {schema : TableSchema} {row : RowData}
    (hlen : row.values.length = schema.columns.length) (stmt : UpdateStatement) :
    updateRow re schema stmt row = .fault ↔ badClause re schema stmt.whereClause row = true := by
  rw [updateRow, Result.bind_eq_fault, passes_eq_fault hlen]
  refine or_iff_left ?_
  rintro ⟨b, -, h⟩
  split at h
  · rcases Result.bind_eq_fault.mp h with h | ⟨row', hrow', h⟩
    · exact assignValues_ne_fault hlen _ h
    rcases Result.bind_eq_fault.mp h with h | ⟨row'', -, h⟩
    · rcases Result.bind_eq_fault.mp h with h | ⟨vs, -, h⟩
      · exact validateValues_ne_fault ((assignValues_ok hrow').2.trans hlen) h
      · cases h
    · cases h
  · cases h

theorem updateRows_eq_fault {schema : TableSchema} {stmt : UpdateStatement} {rows : List RowData}
    (hshape : ∀ row ∈ rows, row.values.length = schema.columns.length) :
    (updateRows env d schema stmt rows v).2 = .fault ↔
      reaches (badClause env.regexMatch schema stmt.whereClause)
        (fun row => (updateRow env.regexMatch schema stmt row).isOk) rows = true := by
  induction rows generalizing v with
  | nil => simp [updateRows, reaches]
  | cons row rows ih =>
      have ih := fun v => ih (v := v) fun r hr => hshape r (by simp [hr])
      have hrow : updateRow env.regexMatch schema stmt row = .fault ↔ _ :=
        updateRow_eq_fault (hshape row (by simp)) stmt
      rw [reaches, Bool.or_eq_true, ← hrow, updateRows]
      cases hres : updateRow env.regexMatch schema stmt row with
      | error e => simp [Result.isOk]
      | fault => simp
      | ok o =>
          cases o with
          | none => simp [Result.map_eq_fault, Result.isOk, ih]
          | some row' => simp [Result.map_eq_fault, Result.isOk, ih]

/-- **When UPDATE throws.** -/
theorem executeUpdate_eq_fault (htab : TableOk d t table)
    (hfit : ∀ row ∈ table.heap.rows, Fits table.schema row) (stmt : UpdateStatement) :
    (executeUpdate env stmt d table v).2.2 = .fault ↔
      reaches (badClause env.regexMatch table.schema stmt.whereClause)
        (fun row => (updateRow env.regexMatch table.schema stmt row).isOk) table.heap.rows
        = true := by
  have hloop : (updateRows env d table.schema stmt table.heap.rows v).2 = .fault ↔ _ :=
    updateRows_eq_fault htab.shape
  rw [← hloop]
  obtain ⟨A, B, A', evs, hAB, hA, -, hend⟩ :=
    updateRows_spec env d table.schema stmt table.heap.rows v
  simp only [executeUpdate, TableHeap.scanAll]
  cases hres : (updateRows env d table.schema stmt table.heap.rows v).2 with
  | error e => simp
  | fault => simp
  | ok p =>
      refine iff_of_false ?_ (by simp)
      rcases hend with ⟨rfl, n, hn⟩ | ⟨-, -, -, -, hne⟩
      · rw [hres] at hn
        cases hn
        rw [List.append_nil] at hAB
        exact replaceRows_ne_fault _ (hA.fits (hAB ▸ hfit)).1 _
      · exact absurd hres (hne p)

theorem deleteRows_eq_fault {schema : TableSchema} {stmt : DeleteStatement} {rows : List RowData}
    (hshape : ∀ row ∈ rows, row.values.length = schema.columns.length) :
    (deleteRows env d schema stmt rows v).2 = .fault ↔
      reaches (badClause env.regexMatch schema stmt.whereClause)
        (fun row => (passes env.regexMatch schema stmt.whereClause row).isOk) rows = true := by
  induction rows generalizing v with
  | nil => simp [deleteRows, reaches]
  | cons row rows ih =>
      have ih := fun v => ih (v := v) fun r hr => hshape r (by simp [hr])
      have hrow : passes env.regexMatch schema stmt.whereClause row = .fault ↔ _ :=
        passes_eq_fault (hshape row (by simp)) stmt.whereClause
      rw [reaches, Bool.or_eq_true, ← hrow, deleteRows]
      cases hres : passes env.regexMatch schema stmt.whereClause row with
      | error e => simp [Result.isOk]
      | fault => simp
      | ok b =>
          cases b with
          | false => simp [Result.map_eq_fault, Result.isOk, ih]
          | true => simp [Result.map_eq_fault, Result.isOk, ih]

/-- **When DELETE throws.** -/
theorem executeDelete_eq_fault (htab : TableOk d t table)
    (hfit : ∀ row ∈ table.heap.rows, Fits table.schema row) (stmt : DeleteStatement) :
    (executeDelete env stmt d table v).2.2 = .fault ↔
      reaches (badClause env.regexMatch table.schema stmt.whereClause)
        (fun row => (passes env.regexMatch table.schema stmt.whereClause row).isOk)
        table.heap.rows = true := by
  have hloop : (deleteRows env d table.schema stmt table.heap.rows v).2 = .fault ↔ _ :=
    deleteRows_eq_fault htab.shape
  rw [← hloop]
  obtain ⟨A, B, A', evs, hAB, hA, -, hend⟩ :=
    deleteRows_spec env d table.schema stmt table.heap.rows v
  simp only [executeDelete, TableHeap.scanAll]
  cases hres : (deleteRows env d table.schema stmt table.heap.rows v).2 with
  | error e => simp
  | fault => simp
  | ok p =>
      refine iff_of_false ?_ (by simp)
      rcases hend with ⟨rfl, n, hn⟩ | ⟨-, -, -, -, hne⟩
      · rw [hres] at hn
        cases hn
        rw [List.append_nil] at hAB
        exact replaceRows_ne_fault _ (fun row hrow => hfit row (hAB ▸ hA.sublist.subset hrow)) _
      · exact absurd hres (hne p)

/-- INSERT never throws. -/
theorem executeInsert_ne_fault (htab : TableOk d t table) {stmt : InsertStatement}
    (hval : validateInsert stmt = .ok ()) : (executeInsert env stmt d table v).2.2 ≠ .fault := by
  unfold executeInsert
  cases hmap : insertColumnMap table.schema stmt.columnNames with
  | error e => simp
  | fault => exact absurd hmap (insertColumnMap_ne_fault _ _)
  | ok map =>
      obtain ⟨hlen, hlt⟩ := insertColumnMap_ok hmap
      have hrows : ∀ input ∈ stmt.rows, input.length = map.length := by
        intro input hinput
        rw [hlen]
        exact validateInsert_rows hval input hinput
      obtain ⟨hnf, -⟩ := insertRows_spec env v htab hrows hlt
      intro h
      exact hnf (Result.map_eq_fault.mp h)

/-- REVERT to rows that fit never throws. -/
theorem executeRevert_ne_fault {stmt : RevertStatement}
    (htarget : ∀ ts, revertTarget stmt d v = .ok (some ts) →
      ∀ row ∈ reconstructTableStateAt v d stmt.tableName.objectName ts, Fits table.schema row) :
    (executeRevert env stmt d table v).2.2 ≠ .fault := by
  have hresolve : revertTarget stmt d v ≠ .fault := by
    unfold revertTarget
    split
    · simp
    · split
      · simp
      · exact Result.makeError_ne_fault _ _
    · split
      · simp
      · exact Result.makeError_ne_fault _ _
  unfold executeRevert
  cases hres : revertTarget stmt d v with
  | error e => simp
  | fault => exact absurd hres hresolve
  | ok target =>
      cases target with
      | none => exact Result.makeError_ne_fault _ _
      | some ts =>
          dsimp only
          split
          · exact Result.makeError_ne_fault _ _
          · exact replaceRows_ne_fault _ (htarget ts hres) _

end Writes

/-! ## §7. Statements on the store. -/

/-- The table a statement gets to. -/
def targetTable (s : Store) (session : SessionContext) (name : QualifiedName) :
    Option TableRuntime :=
  match resolveDatabaseName session name.databaseName with
  | .ok d => storeTable s d name.objectName
  | _ => none

/-- **A statement whose WHERE clause throws**: a SELECT whose index path has no
key for a literal, or a SELECT, an UPDATE or a DELETE whose loop gets to a row
on which a LIKE has a malformed pattern. -/
def throwsInWhere (re : RegexMatch) (s : Store) (session : SessionContext) : Statement → Bool
  | .select stmt =>
      (targetTable s session stmt.tableName).any fun table =>
        mistypedKey table.schema stmt.whereClause ||
          reaches (badClause re table.schema stmt.whereClause)
            (fun row => (passes re table.schema stmt.whereClause row).isOk) table.heap.rows
  | .update stmt =>
      (targetTable s session stmt.tableName).any fun table =>
        reaches (badClause re table.schema stmt.whereClause)
          (fun row => (updateRow re table.schema stmt row).isOk) table.heap.rows
  | .delete stmt =>
      (targetTable s session stmt.tableName).any fun table =>
        reaches (badClause re table.schema stmt.whereClause)
          (fun row => (passes re table.schema stmt.whereClause row).isOk) table.heap.rows
  | _ => false

section Statements

variable {env : Env} {s : Store} {session : SessionContext} {name : QualifiedName}
variable {d : Str} {db : DatabaseRuntime} {table : TableRuntime}

theorem targetTable_onTable (h : OnTable s session name d db table) :
    targetTable s session name = some table := by
  simp [targetTable, storeTable, h.database, h.found, h.table]

theorem targetTable_none (h : ∀ d db table, ¬ OnTable s session name d db table) :
    targetTable s session name = none := by
  unfold targetTable
  split
  · rename_i d hd
    unfold storeTable
    cases hdb : s.runtime.databases.find? d with
    | none => rfl
    | some db =>
        cases ht : db.tables.find? name.objectName with
        | none => simp [ht]
        | some table => exact absurd ⟨hd, hdb, ht⟩ (h d db table)
  · rfl

theorem resolveDatabaseName_ne_fault (session : SessionContext) (requested : Option Str) :
    resolveDatabaseName session requested ≠ .fault := by
  unfold resolveDatabaseName
  split
  · simp
  · split
    · exact Result.makeError_ne_fault _ _
    · simp

/-- The preamble of the statements on a table does not throw. -/
theorem withTable_eq_fault
    {f : Str → TableRuntime → VersionStore → TableRuntime × VersionStore × Result QueryResult}
    {throws : TableRuntime → Bool}
    (hf : ∀ d db table, OnTable s session name d db table →
      ((f d table s.versions).2.2 = .fault ↔ throws table = true)) :
    (withTable s session name f).2 = .fault ↔
      (targetTable s session name).any throws = true := by
  rcases withTable_cases s session name with ⟨d, db, table, hon⟩ | ⟨hoff, -⟩
  · rw [withTable_onTable hon, targetTable_onTable hon]
    exact hf d db table hon
  · rw [targetTable_none hoff]
    refine iff_of_false ?_ (by simp)
    unfold withTable
    split
    · simp
    · rename_i h
      exact absurd h (resolveDatabaseName_ne_fault session name.databaseName)
    · rename_i d hd
      split
      · exact Result.makeError_ne_fault _ _
      · rename_i db hdb
        split
        · exact Result.makeError_ne_fault _ _
        · rename_i table ht
          exact absurd ⟨hd, hdb, ht⟩ (hoff d db table)

theorem withTable_ne_fault
    {f : Str → TableRuntime → VersionStore → TableRuntime × VersionStore × Result QueryResult}
    (hf : ∀ d db table, OnTable s session name d db table → (f d table s.versions).2.2 ≠ .fault) :
    (withTable s session name f).2 ≠ .fault := by
  have h : (withTable s session name f).2 = .fault ↔
      (targetTable s session name).any (fun _ => false) = true :=
    withTable_eq_fault fun d db table hon => iff_of_false (hf d db table hon) (by simp)
  rw [Ne, h]
  cases targetTable s session name <;> simp

/-- **When a statement throws**, in a store whose rows fit their schemas. -/
theorem execute_eq_fault (hok : StoreOk s) (hfit : EachTable FitsTable s)
    {statement : Statement} (hval : validateStatement statement = .ok ()) (detail : Str)
    (hno : revertsPastCreation s session statement = false) :
    (execute env s session statement detail).2.2 = .fault ↔
      throwsInWhere env.regexMatch s session statement = true := by
  have htab : ∀ {name d db table}, OnTable s session name d db table →
      TableOk d name.objectName table ∧ ∀ row ∈ table.heap.rows, Fits table.schema row :=
    fun hon => ⟨(hok.state _ _ hon.found).tables _ _ hon.table,
      (hfit _ _ _ _ hon.found hon.table).rows⟩
  cases statement with
  | select stmt =>
      exact withTable_eq_fault fun d db table hon => executeSelect_eq_fault (htab hon).1
  | update stmt =>
      exact withTable_eq_fault fun d db table hon =>
        executeUpdate_eq_fault (htab hon).1 (htab hon).2 stmt
  | delete stmt =>
      exact withTable_eq_fault fun d db table hon =>
        executeDelete_eq_fault (htab hon).1 (htab hon).2 stmt
  | insert stmt =>
      exact iff_of_false (withTable_ne_fault fun d db table hon =>
        executeInsert_ne_fault (htab hon).1 hval) (by simp [throwsInWhere])
  | revert stmt =>
      exact iff_of_false (withTable_ne_fault fun d db table hon =>
        executeRevert_ne_fault fun ts hts => revertTarget_fits hfit hon hno hts)
        (by simp [throwsInWhere])
  | createDatabase n =>
      refine iff_of_false ?_ (by simp [throwsInWhere])
      simp only [execute, executeCreateDatabase]
      split
      · exact Result.makeError_ne_fault _ _
      · simp
  | dropDatabase n =>
      refine iff_of_false ?_ (by simp [throwsInWhere])
      simp only [execute, executeDropDatabase]
      split
      · simp
      · exact Result.makeError_ne_fault _ _
  | useDatabase n =>
      refine iff_of_false ?_ (by simp [throwsInWhere])
      simp only [execute, executeUse]
      split
      · simp
      · exact Result.makeError_ne_fault _ _
  | createTable stmt =>
      refine iff_of_false ?_ (by simp [throwsInWhere])
      simp only [execute, executeCreateTable]
      split
      · simp
      · rename_i h
        exact absurd h (resolveDatabaseName_ne_fault _ _)
      · split
        · exact Result.makeError_ne_fault _ _
        · split
          · exact Result.makeError_ne_fault _ _
          · simp
  | dropTable n =>
      refine iff_of_false ?_ (by simp [throwsInWhere])
      simp only [execute, executeDropTable]
      split
      · simp
      · rename_i h
        exact absurd h (resolveDatabaseName_ne_fault _ _)
      · split
        · exact Result.makeError_ne_fault _ _
        · split
          · exact Result.makeError_ne_fault _ _
          · simp
  | checkIndex =>
      refine iff_of_false ?_ (by simp [throwsInWhere])
      simp [execute, executeCheckIndex, hok.state.validates]
  | rebuildIndex =>
      refine iff_of_false ?_ (by simp [throwsInWhere])
      obtain ⟨s', hrun, -⟩ := rebuildRuntimeIndexes_ok hok.state
      simp [execute, executeRebuildIndex, hrun]
  | unknown raw => exact iff_of_false (Result.makeError_ne_fault _ _) (by simp [throwsInWhere])
  | beginTransaction =>
      exact iff_of_false (Result.makeError_ne_fault _ _) (by simp [throwsInWhere])
  | commitTransaction =>
      exact iff_of_false (Result.makeError_ne_fault _ _) (by simp [throwsInWhere])
  | rollbackTransaction =>
      exact iff_of_false (Result.makeError_ne_fault _ _) (by simp [throwsInWhere])

end Statements

end CustomDbms.Execution
