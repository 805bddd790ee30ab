/-
  CustomDbms.Execution.TypeMismatch
  ─────────────────────────────────
  **COLUMNS COMPARED WITH LITERALS OF ANOTHER TYPE.**

  Neither AND nor OR is short-circuit, so a comparison anywhere in a clause is
  evaluated on the first row of the table.  A value that fits its column has
  the column's type or is NULL; a literal of another type has neither.  What
  comes before such a comparison can fail too, and then decides the error: a
  name that is no column gives SEMANTIC_ERROR.  With all names known
  (`resolves`) every error of a clause is a TYPE_MISMATCH.

    • `evaluatePredicate_mistyped` — one row;
    • `execute_mistyped` — the statements.
-/
import CustomDbms.Execution.WhereErrors

namespace CustomDbms.Execution

open CustomDbms.Common CustomDbms.Catalog CustomDbms.Core CustomDbms.Index CustomDbms.Lib
open CustomDbms.Parser CustomDbms.Storage CustomDbms.Versioning

/-! ## §1. Clauses. -/

/-- A literal, or a column of the table. -/
def resolvesScalar (schema : TableSchema) : Expression → Bool
  | .literal _ => true
  | .columnReference _ _ column => (findColumnIndex schema column).isSome
  | _ => false

/-- All operands that are looked up are there; BETWEEN and LIKE give one error
for all that can be wrong with theirs. -/
def resolves (schema : TableSchema) : Expression → Bool
  | .logical _ left right => resolves schema left && resolves schema right
  | .binaryComparison _ left right => resolvesScalar schema left && resolvesScalar schema right
  | .between _ _ _ | .like _ _ => true
  | expr => resolvesScalar schema expr

/-- A literal of another type than the column. -/
def typeDiffers (schema : TableSchema) (column : Str) (v : Value) : Bool :=
  ((findColumnIndex schema column).bind fun i => schema.columns[i]?).any fun c =>
    decide (getValueType v ≠ c.type)

/-- **A clause in which a column is compared with a literal of another type.** -/
def mistyped (schema : TableSchema) : Expression → Bool
  | .logical _ left right => mistyped schema left || mistyped schema right
  | .binaryComparison _ (.columnReference _ _ column) (.literal v)
  | .binaryComparison _ (.literal v) (.columnReference _ _ column) => typeDiffers schema column v
  | .between (.columnReference _ _ column) (.literal lower) (.literal upper) =>
      typeDiffers schema column lower || typeDiffers schema column upper
  | _ => false

/-! ## §2. One row. -/

/-- A result whose error, if it is one, is a type mismatch. -/
def OnlyMismatch {α : Type} (r : Result α) : Prop := ∀ e, r = .error e → e.code = .typeMismatch

section Row

variable {re : RegexMatch} {schema : TableSchema} {row : RowData}

theorem onlyMismatch_bind {α β : Type} {r : Result α} {f : α → Result β} (hr : OnlyMismatch r)
    (hf : ∀ a, OnlyMismatch (f a)) : OnlyMismatch (r >>= f) := by
  cases r with
  | ok a => exact hf a
  | error e =>
      intro e' he'
      cases he'
      exact hr e rfl
  | fault =>
      intro e he
      cases he

theorem onlyMismatch_ok {α : Type} (a : α) : OnlyMismatch (.ok a) := by
  intro e he
  cases he

theorem onlyMismatch_ofOption {α : Type} (o : Option α) : OnlyMismatch (Result.ofOption o) := by
  intro e he
  cases o <;> cases he

theorem onlyMismatch_makeError {α : Type} (message : Str) :
    OnlyMismatch (.makeError .typeMismatch message : Result α) := by
  intro e he
  cases he
  rfl

theorem onlyMismatch_scalar {expr : Expression} (h : resolvesScalar schema expr = true) :
    OnlyMismatch (evaluateValueExpression expr schema row) := by
  cases expr with
  | literal v => exact onlyMismatch_ok v
  | columnReference database table column =>
      obtain ⟨i, hi⟩ := Option.isSome_iff_exists.mp h
      rw [evaluateValueExpression, hi]
      exact onlyMismatch_ofOption _
  | _ => cases h

/-- **With all names known, the errors of a clause are type mismatches.** -/
theorem evaluatePredicate_onlyMismatch {expr : Expression} (h : resolves schema expr = true) :
    OnlyMismatch (evaluatePredicate re schema row expr) := by
  have hoperand : ∀ {α : Type} (r : Result α), OnlyMismatch (operand r) := by
    intro α r e he
    cases r <;> cases he
  induction expr with
  | logical op left right ihl ihr =>
      obtain ⟨hl, hr⟩ := (Bool.and_eq_true _ _).mp h
      exact onlyMismatch_bind (ihl hl) fun _ => onlyMismatch_bind (ihr hr) fun _ =>
        onlyMismatch_ok _
  | binaryComparison op left right =>
      obtain ⟨hl, hr⟩ := (Bool.and_eq_true _ _).mp h
      rw [evaluatePredicate]
      refine onlyMismatch_bind (onlyMismatch_scalar hl) fun l =>
        onlyMismatch_bind (onlyMismatch_scalar hr) fun r => ?_
      split
      · exact onlyMismatch_makeError _
      · exact onlyMismatch_bind (onlyMismatch_ofOption _) fun _ => onlyMismatch_ok _
  | between value lower upper =>
      rw [evaluatePredicate]
      refine onlyMismatch_bind (hoperand _) fun v => onlyMismatch_bind (hoperand _) fun lo =>
        onlyMismatch_bind (hoperand _) fun hi => ?_
      unfold evaluateBetween
      split
      · split
        · exact onlyMismatch_makeError _
        · exact onlyMismatch_bind (onlyMismatch_ofOption _) fun _ =>
            onlyMismatch_bind (onlyMismatch_ofOption _) fun _ => onlyMismatch_ok _
      · exact onlyMismatch_makeError _
  | like value pattern =>
      rw [evaluatePredicate]
      refine onlyMismatch_bind (hoperand _) fun v => onlyMismatch_bind (hoperand _) fun p => ?_
      unfold evaluateLike
      split
      · split
        · exact onlyMismatch_ofOption _
        · exact onlyMismatch_makeError _
      · exact onlyMismatch_makeError _
  | literal v => exact onlyMismatch_ok _
  | columnReference database table column =>
      have hcolumn : resolvesScalar schema (.columnReference database table column) = true := h
      exact onlyMismatch_bind (onlyMismatch_scalar hcolumn) fun _ => onlyMismatch_ok _
  | aggregateCall kind column => cases h

/-- A value of the column and a literal of another type have different types. -/
theorem typeDiffers_value (hfit : Fits schema row) (database table : Option Str) {column : Str}
    {v : Value} (hv : isNull v = false) (h : typeDiffers schema column v = true) :
    ∃ w, evaluateValueExpression (.columnReference database table column) schema row = .ok w ∧
      getValueType w ≠ getValueType v := by
  unfold typeDiffers at h
  cases hi : findColumnIndex schema column with
  | none => simp [hi] at h
  | some i =>
      have hlt := findColumnIndex_lt hi
      obtain ⟨c, hc⟩ : ∃ c, schema.columns[i]? = some c := ⟨_, List.getElem?_eq_getElem hlt⟩
      obtain ⟨w, hw⟩ : ∃ w, row.values[i]? = some w :=
        ⟨_, List.getElem?_eq_getElem (hfit.length ▸ hlt)⟩
      have htype : getValueType v ≠ c.type := by simpa [hi, hc] using h
      refine ⟨w, by simp [evaluateValueExpression, hi, hw], ?_⟩
      rcases typed_of_canAssign (hfit.values i c w hc hw) with hfits | ⟨rfl, -⟩
      · intro heq
        exact htype (heq.symm.trans hfits)
      · intro heq
        cases v with
        | null => cases hv
        | int a => cases heq
        | string a => cases heq

/-- **Such a comparison does not succeed on any row.** -/
theorem evaluatePredicate_mistyped_ne_ok (hfit : Fits schema row) {expr : Expression}
    (hnull : NotNull expr) (h : mistyped schema expr = true) (b : Bool) :
    evaluatePredicate re schema row expr ≠ .ok b := by
  induction expr generalizing b with
  | logical op left right ihl ihr =>
      intro hok
      obtain ⟨l, hl, hok⟩ := Result.bind_eq_ok.mp hok
      obtain ⟨r, hr, -⟩ := Result.bind_eq_ok.mp hok
      rcases (Bool.or_eq_true _ _).mp h with h | h
      · exact ihl hnull.1 h l hl
      · exact ihr hnull.2 h r hr
  | binaryComparison op left right =>
      have hdiff : ∃ l r, evaluateValueExpression left schema row = .ok l ∧
          evaluateValueExpression right schema row = .ok r ∧ getValueType l ≠ getValueType r := by
        unfold mistyped at h
        split at h
        · rename_i heq
          cases heq
        · rename_i database table column v heq
          cases heq
          obtain ⟨w, hw, hne⟩ := typeDiffers_value hfit database table hnull.2 h
          exact ⟨w, v, hw, rfl, hne⟩
        · rename_i v database table column heq
          cases heq
          obtain ⟨w, hw, hne⟩ := typeDiffers_value hfit database table hnull.1 h
          exact ⟨v, w, rfl, hw, hne.symm⟩
        · rename_i heq
          cases heq
        · cases h
      obtain ⟨l, r, hl, hr, hne⟩ := hdiff
      rw [evaluatePredicate, hl, hr, Result.ok_bind, Result.ok_bind, if_pos hne]
      intro hok
      cases hok
  | between value lower upper =>
      unfold mistyped at h
      split at h
      · rename_i heq
        cases heq
      · rename_i heq
        cases heq
      · rename_i heq
        cases heq
      · rename_i database table column lo hi heq
        cases heq
        have hdiff : ∃ w, evaluateValueExpression (.columnReference database table column) schema row
            = .ok w ∧ (getValueType w ≠ getValueType lo ∨ getValueType w ≠ getValueType hi) := by
          rcases (Bool.or_eq_true _ _).mp h with h | h
          · obtain ⟨w, hw, hne⟩ := typeDiffers_value hfit database table hnull.2.1 h
            exact ⟨w, hw, Or.inl hne⟩
          · obtain ⟨w, hw, hne⟩ := typeDiffers_value hfit database table hnull.2.2 h
            exact ⟨w, hw, Or.inr hne⟩
        obtain ⟨w, hw, hne⟩ := hdiff
        rw [evaluatePredicate, hw]
        simp only [evaluateValueExpression, operand, Result.ok_bind, evaluateBetween, if_pos hne]
        intro hok
        cases hok
      · cases h
  | like value pattern => cases h
  | literal v => cases h
  | columnReference database table column => cases h
  | aggregateCall kind column => cases h

/-- **A type mismatch on every row**, where no LIKE throws first. -/
theorem evaluatePredicate_mistyped (hfit : Fits schema row) {expr : Expression}
    (hnull : NotNull expr) (hnames : resolves schema expr = true)
    (h : mistyped schema expr = true) (hgood : badPattern re schema row expr = false) :
    ∃ message, evaluatePredicate re schema row expr = .error ⟨.typeMismatch, message⟩ := by
  cases hres : evaluatePredicate re schema row expr with
  | ok b => exact absurd hres (evaluatePredicate_mistyped_ne_ok hfit hnull h b)
  | fault =>
      rw [evaluatePredicate_eq_fault hfit.length, hgood] at hres
      cases hres
  | error e =>
      have hcode := evaluatePredicate_onlyMismatch hnames e hres
      obtain ⟨code, message⟩ := e
      cases hcode
      exact ⟨message, rfl⟩

end Row

/-! ## §3. The index path. -/

section Index

variable {re : RegexMatch} {d t : Str} {table : TableRuntime}

/-- In a table with rows, a literal of another type has no key in an INDEXED
column: the rows show that the column is one of integers or of strings. -/
theorem encodeIndexKey_mistyped (htab : TableOk d t table)
    (hfit : ∀ row ∈ table.heap.rows, Fits table.schema row) (hrows : table.heap.rows ≠ [])
    {i : Nat} {c : Catalog.ColumnDefinition} (hc : table.schema.columns[i]? = some c)
    (hidx : c.constraint = .indexed) {v : Value} (hv : isNull v = false)
    (htype : getValueType v ≠ c.type) : encodeIndexKey v c.type = none := by
  obtain ⟨row, hrow⟩ := List.exists_mem_of_ne_nil _ hrows
  obtain ⟨-, -, -, hkeyed⟩ := indexed_column htab hc hidx
  obtain ⟨w, -, hw, hnull, -⟩ := hkeyed row hrow
  have hctype : getValueType w = c.type := by
    rcases typed_of_canAssign ((hfit row hrow).values i c w hc hw) with h | ⟨rfl, -⟩
    · exact h
    · cases hnull
  rw [← hctype] at htype ⊢
  cases v with
  | null => cases hv
  | int a =>
      cases w with
      | null => cases hnull
      | int b => exact absurd rfl htype
      | string b => rfl
  | string a =>
      cases w with
      | null => cases hnull
      | int b => rfl
      | string b => exact absurd rfl htype

/-- **Where the index path is taken, no literal is of another type.** -/
theorem not_mistyped_of_index (htab : TableOk d t table)
    (hfit : ∀ row ∈ table.heap.rows, Fits table.schema row) (hrows : table.heap.rows ≠ [])
    {expr : Expression} (hnull : NotNull expr) {ids : List RowId}
    (h : indexCandidates table.schema table.indexes (some expr) = .ok (some ids)) :
    mistyped table.schema expr = false := by
  have hkey : mistypedKey table.schema (some expr) = false := by
    rw [← Bool.not_eq_true, ← indexCandidates_eq_fault htab, h]
    simp
  -- one literal and the column it is compared with
  have hliteral : ∀ column i tree v, findColumnIndex table.schema column = some i →
      table.indexes.find? column = some tree → isNull v = false →
      (∀ c, table.schema.columns[i]? = some c → c.constraint = .indexed →
        encodeIndexKey v c.type ≠ none) → typeDiffers table.schema column v = false := by
    intro column i tree v hi htree hv henc
    obtain ⟨c, hc⟩ : ∃ c, table.schema.columns[i]? = some c :=
      ⟨_, List.getElem?_eq_getElem (findColumnIndex_lt hi)⟩
    have hidx : c.constraint = .indexed := (find_index_isSome htab hi hc).mp (by rw [htree]; rfl)
    by_contra hdiff
    have htype : getValueType v ≠ c.type := by simpa [typeDiffers, hi, hc] using hdiff
    exact henc c hc hidx (encodeIndexKey_mistyped htab hfit hrows hc hidx hv htype)
  unfold indexCandidates at h
  split at h
  · rename_i op database tbl column v heq
    cases heq
    split at h
    · rename_i i tree hi htree
      refine hliteral column i tree v hi htree hnull.2 fun c hc hidx hnone => ?_
      simp [mistypedKey, indexLiterals, hi, hc, hidx, hnone] at hkey
    · cases h
  · rename_i database tbl column lower upper heq
    cases heq
    split at h
    · rename_i i tree hi htree
      show (typeDiffers table.schema column lower || typeDiffers table.schema column upper) = false
      rw [Bool.or_eq_false_iff]
      constructor
      · refine hliteral column i tree lower hi htree hnull.2.1 fun c hc hidx hnone => ?_
        simp [mistypedKey, indexLiterals, hi, hc, hidx, hnone] at hkey
      · refine hliteral column i tree upper hi htree hnull.2.2 fun c hc hidx hnone => ?_
        simp [mistypedKey, indexLiterals, hi, hc, hidx, hnone] at hkey
    · cases h
  · cases h

end Index

/-! ## §4. Statements. -/

/-- A TYPE_MISMATCH. -/
def IsMismatch {α : Type} (r : Result α) : Prop := ∃ message, r = .error ⟨.typeMismatch, message⟩

section Statements

variable {env : Env} {d t : Str} {table : TableRuntime} {v : VersionStore} {expr : Expression}

/-- A loop that does not get to a bad row meets none at its first. -/
theorem passes_first {re : RegexMatch} (hfit : ∀ row ∈ table.heap.rows, Fits table.schema row)
    (hnull : NotNull expr) (hnames : resolves table.schema expr = true)
    (h : mistyped table.schema expr = true) {goesOn : RowData → Bool} {row : RowData}
    {rows : List RowData} (hrows : table.heap.rows = row :: rows)
    (hgood : reaches (badClause re table.schema (some expr)) goesOn table.heap.rows = false) :
    IsMismatch (passes re table.schema (some expr) row) := by
  rw [hrows, reaches, Bool.or_eq_false_iff] at hgood
  exact evaluatePredicate_mistyped (hfit row (by simp [hrows])) hnull hnames h hgood.1

/-- SELECT. -/
theorem executeSelect_mistyped (htab : TableOk d t table)
    (hfit : ∀ row ∈ table.heap.rows, Fits table.schema row) (hne : table.heap.rows ≠ [])
    {stmt : SelectStatement} (hclause : stmt.whereClause = some expr) (hnull : NotNull expr)
    (hnames : resolves table.schema expr = true) (h : mistyped table.schema expr = true)
    (hgood : executeSelect env stmt table ≠ .fault) : IsMismatch (executeSelect env stmt table) := by
  rw [Ne, executeSelect_eq_fault htab, Bool.not_eq_true, Bool.or_eq_false_iff, hclause] at hgood
  obtain ⟨hkey, hreach⟩ := hgood
  obtain ⟨row, rows, hrows⟩ := List.exists_cons_of_ne_nil hne
  obtain ⟨message, hpass⟩ := passes_first hfit hnull hnames h hrows hreach
  have hscan : indexCandidates table.schema table.indexes (some expr) = .ok none := by
    cases hix : indexCandidates table.schema table.indexes (some expr) with
    | error e => exact absurd hix (indexCandidates_ne_error _ e)
    | fault =>
        rw [indexCandidates_eq_fault htab, hkey] at hix
        cases hix
    | ok candidates =>
        cases candidates with
        | none => rfl
        | some ids =>
            rw [not_mistyped_of_index htab hfit hne hnull hix] at h
            cases h
  refine ⟨message, ?_⟩
  rw [executeSelect, filterRows, TableHeap.scanAll, hclause, hscan, hrows]
  simp only [Result.ok_bind, filterScan, hpass, Result.error_bind]

/-- UPDATE. -/
theorem executeUpdate_mistyped (htab : TableOk d t table)
    (hfit : ∀ row ∈ table.heap.rows, Fits table.schema row) (hne : table.heap.rows ≠ [])
    {stmt : UpdateStatement} (hclause : stmt.whereClause = some expr) (hnull : NotNull expr)
    (hnames : resolves table.schema expr = true) (h : mistyped table.schema expr = true)
    (hgood : (executeUpdate env stmt d table v).2.2 ≠ .fault) :
    IsMismatch (executeUpdate env stmt d table v).2.2 := by
  rw [Ne, executeUpdate_eq_fault htab hfit, Bool.not_eq_true, hclause] at hgood
  obtain ⟨row, rows, hrows⟩ := List.exists_cons_of_ne_nil hne
  obtain ⟨message, hpass⟩ := passes_first hfit hnull hnames h hrows hgood
  refine ⟨message, ?_⟩
  simp only [executeUpdate, TableHeap.scanAll, hrows, updateRows, updateRow, hclause, hpass,
    Result.error_bind]

/-- DELETE. -/
theorem executeDelete_mistyped (htab : TableOk d t table)
    (hfit : ∀ row ∈ table.heap.rows, Fits table.schema row) (hne : table.heap.rows ≠ [])
    {stmt : DeleteStatement} (hclause : stmt.whereClause = some expr) (hnull : NotNull expr)
    (hnames : resolves table.schema expr = true) (h : mistyped table.schema expr = true)
    (hgood : (executeDelete env stmt d table v).2.2 ≠ .fault) :
    IsMismatch (executeDelete env stmt d table v).2.2 := by
  rw [Ne, executeDelete_eq_fault htab hfit, Bool.not_eq_true, hclause] at hgood
  obtain ⟨row, rows, hrows⟩ := List.exists_cons_of_ne_nil hne
  obtain ⟨message, hpass⟩ := passes_first hfit hnull hnames h hrows hgood
  refine ⟨message, ?_⟩
  simp only [executeDelete, TableHeap.scanAll, hrows, deleteRows, hclause, hpass]

end Statements

/-- **What a statement owes to a comparison of another type**: on a table with
rows, with all names of the clause known, it ends in TYPE_MISMATCH. -/
def MismatchReported (s : Store) (session : SessionContext) (statement : Statement)
    (result : Result QueryResult) : Prop :=
  ∀ name clause table, statement.whereOn = some (name, clause) →
    targetTable s session name = some table → table.heap.rows ≠ [] →
    resolves table.schema clause = true → mistyped table.schema clause = true →
    IsMismatch result

/-- **A statement that does not throw reports it.** -/
theorem execute_mistyped {env : Env} {s : Store} {session : SessionContext}
    {statement : Statement} (hok : StoreOk s) (hfit : EachTable FitsTable s)
    (hnull : WhereNotNull statement) (detail : Str)
    (hgood : (execute env s session statement detail).2.2 ≠ .fault) :
    MismatchReported s session statement (execute env s session statement detail).2.2 := by
  intro name clause table hwhere htarget hne hnames hmis
  have hclause := hnull name clause hwhere
  obtain ⟨d, db, hon⟩ : ∃ d db, OnTable s session name d db table := by
    rcases withTable_cases s session name with ⟨d, db, table', hon⟩ | ⟨hoff, -⟩
    · rw [targetTable_onTable hon] at htarget
      cases htarget
      exact ⟨d, db, hon⟩
    · rw [targetTable_none hoff] at htarget
      cases htarget
  have htab := (hok.state _ _ hon.found).tables _ _ hon.table
  have hfits := (hfit _ _ _ _ hon.found hon.table).rows
  cases statement with
  | select stmt =>
      obtain ⟨_, hw, heq⟩ := Option.map_eq_some_iff.mp hwhere
      cases heq
      simp only [execute, withTable_onTable hon] at hgood ⊢
      exact executeSelect_mistyped htab hfits hne hw hclause hnames hmis hgood
  | update stmt =>
      obtain ⟨_, hw, heq⟩ := Option.map_eq_some_iff.mp hwhere
      cases heq
      simp only [execute, withTable_onTable hon] at hgood ⊢
      exact executeUpdate_mistyped htab hfits hne hw hclause hnames hmis hgood
  | delete stmt =>
      obtain ⟨_, hw, heq⟩ := Option.map_eq_some_iff.mp hwhere
      cases heq
      simp only [execute, withTable_onTable hon] at hgood ⊢
      exact executeDelete_mistyped htab hfits hne hw hclause hnames hmis hgood
  | _ => cases hwhere

end CustomDbms.Execution
