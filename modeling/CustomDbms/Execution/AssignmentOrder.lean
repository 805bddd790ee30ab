/-
  CustomDbms.Execution.AssignmentOrder
  ────────────────────────────────────
  **THE ORDER OF ASSIGNMENTS.**

  The loop of UPDATE evaluates an assignment on the row that the earlier ones
  have changed already; the copy `before_row` goes into the log only.  A list
  means what the row held before it where no assignment reads a column that
  another one changes.

    • `Independent` — the condition on one row;
    • `assignValues_simultaneous`, `independent_of_simultaneous` — it is enough
      for one list, and it is needed for all orders of the list;
    • `update_simultaneous_iff` — the same for the rows of a table and the
      table that results.
-/
import CustomDbms.Execution.ColumnValues
import CustomDbms.Execution.SelectedRows

namespace CustomDbms.Execution

open CustomDbms.Common CustomDbms.Catalog CustomDbms.Core CustomDbms.Lib CustomDbms.Parser
open CustomDbms.Storage CustomDbms.Versioning

/-! ## §1. The value of a column. -/

/-- What a row holds in a column. -/
def valueIn (schema : TableSchema) (row : RowData) (columnName : Str) : Result Value :=
  evaluateValueExpression (.columnReference none none columnName) schema row

/-- The column whose value an expression is. -/
def columnRead : Expression → Option Str
  | .columnReference _ _ columnName => some columnName
  | _ => none

section Values

variable {schema : TableSchema} {row row' : RowData}

theorem valueIn_eq_ok {n : Str} {v : Value} :
    valueIn schema row n = .ok v ↔
      ∃ i, findColumnIndex schema n = some i ∧ row.values[i]? = some v := by
  unfold valueIn evaluateValueExpression
  dsimp only
  cases hi : findColumnIndex schema n with
  | none =>
      refine iff_of_false (fun h => by cases h) ?_
      rintro ⟨i, h, -⟩
      cases h
  | some i =>
      rw [Result.ofOption_eq_ok]
      constructor
      · intro h
        exact ⟨i, rfl, h⟩
      · rintro ⟨j, hj, h⟩
        cases hj
        exact h

/-- An expression sees of a row the column it reads. -/
theorem evaluate_congr {e : Expression}
    (h : ∀ n, columnRead e = some n → valueIn schema row n = valueIn schema row' n) :
    evaluateValueExpression e schema row = evaluateValueExpression e schema row' := by
  cases e with
  | columnReference d t n => exact h n rfl
  | _ => rfl

/-- Whether it has a value depends on the number of values only. -/
theorem evaluate_isOk_congr (e : Expression) (hlen : row.values.length = row'.values.length) :
    (evaluateValueExpression e schema row).isOk
      = (evaluateValueExpression e schema row').isOk := by
  cases e with
  | columnReference d t n =>
      unfold evaluateValueExpression
      dsimp only
      cases findColumnIndex schema n with
      | none => rfl
      | some i =>
          dsimp only
          by_cases hi : i < row.values.length
          · rw [List.getElem?_eq_getElem hi, List.getElem?_eq_getElem (hlen ▸ hi)]
            rfl
          · rw [List.getElem?_eq_none (by omega), List.getElem?_eq_none (by omega)]
  | _ => rfl

theorem valueIn_set {n : Str} {i : Nat} (hi : findColumnIndex schema n = some i)
    (hlt : i < row.values.length) (v : Value) (m : Str) :
    valueIn schema { row with values := row.values.set i v } m
      = if m = n then .ok v else valueIn schema row m := by
  by_cases hm : m = n
  · subst hm
    rw [if_pos rfl, valueIn_eq_ok]
    exact ⟨i, hi, List.getElem?_set_self hlt⟩
  · rw [if_neg hm]
    unfold valueIn evaluateValueExpression
    dsimp only
    cases hj : findColumnIndex schema m with
    | none => rfl
    | some j =>
        have hne : i ≠ j := by
          rintro rfl
          exact hm (findColumnIndex_inj hj hi)
        dsimp only
        rw [List.getElem?_set_ne hne]

end Values

/-! ## §2. Lists of assignments. -/

/-- Every assignment names a column and has a value. -/
def Assignable (schema : TableSchema) (as : List Assignment) (row : RowData) : Prop :=
  ∀ a ∈ as, (∃ i, findColumnIndex schema a.columnName = some i ∧ i < row.values.length) ∧
    (evaluateValueExpression a.value schema row).isOk = true

/-- No assignment reads a column that another one changes. -/
def Independent (schema : TableSchema) (as : List Assignment) (row : RowData) : Prop :=
  ∀ a ∈ as, ∀ b ∈ as, a.columnName ≠ b.columnName → columnRead b.value = some a.columnName →
    evaluateValueExpression a.value schema row = valueIn schema row a.columnName

section Lists

variable {schema : TableSchema} {as as' : List Assignment} {a : Assignment} {row row' : RowData}

/-- One turn of the loop. -/
theorem assignValues_cons_eq_ok :
    assignValues schema (a :: as) row = .ok row' ↔
      ∃ i v, findColumnIndex schema a.columnName = some i ∧ i < row.values.length ∧
        evaluateValueExpression a.value schema row = .ok v ∧
        assignValues schema as { row with values := row.values.set i v } = .ok row' := by
  rw [assignValues]
  constructor
  · intro h
    cases hi : findColumnIndex schema a.columnName with
    | none =>
        rw [hi] at h
        cases h
    | some i =>
        rw [hi] at h
        obtain ⟨v, hv, h⟩ := Result.bind_eq_ok.mp h
        by_cases hlt : i < row.values.length
        · rw [if_pos hlt] at h
          exact ⟨i, v, rfl, hlt, hv, h⟩
        · rw [if_neg hlt] at h
          cases h
  · rintro ⟨i, v, hi, hlt, hv, h⟩
    rw [hi]
    dsimp only
    rw [hv, Result.ok_bind, if_pos hlt]
    exact h

theorem Assignable.congr (h : Assignable schema as row)
    (hlen : row.values.length = row'.values.length) : Assignable schema as row' := by
  intro a ha
  obtain ⟨⟨i, hi, hlt⟩, hvalue⟩ := h a ha
  exact ⟨⟨i, hi, hlen ▸ hlt⟩, by rw [← evaluate_isOk_congr a.value hlen]; exact hvalue⟩

theorem Assignable.perm (h : Assignable schema as row) (hperm : as'.Perm as) :
    Assignable schema as' row :=
  fun a ha => h a (hperm.mem_iff.mp ha)

/-- The loop ends well exactly on such a list. -/
theorem assignValues_isOk_iff :
    (assignValues schema as row).isOk = true ↔ Assignable schema as row := by
  induction as generalizing row with
  | nil =>
      refine iff_of_true rfl ?_
      intro a ha
      cases ha
  | cons a as ih =>
      rw [isOk_iff]
      constructor
      · rintro ⟨row', h⟩
        obtain ⟨i, v, hi, hlt, hv, hrest⟩ := assignValues_cons_eq_ok.mp h
        have htail := ih.mp (isOk_iff.mpr ⟨row', hrest⟩)
        intro b hb
        rcases List.mem_cons.mp hb with rfl | hb
        · exact ⟨⟨i, hi, hlt⟩, isOk_iff.mpr ⟨v, hv⟩⟩
        · exact htail.congr (by simp) b hb
      · intro h
        obtain ⟨⟨i, hi, hlt⟩, hvalue⟩ := h a (by simp)
        obtain ⟨v, hv⟩ := isOk_iff.mp hvalue
        have htail : Assignable schema as { row with values := row.values.set i v } :=
          Assignable.congr (fun b hb => h b (List.mem_cons_of_mem a hb)) (by simp)
        obtain ⟨row', hrest⟩ := isOk_iff.mp (ih.mpr htail)
        exact ⟨row', assignValues_cons_eq_ok.mpr ⟨i, v, hi, hlt, hv, hrest⟩⟩

/-- A column that is not assigned keeps its value. -/
theorem assignValues_valueIn (h : assignValues schema as row = .ok row') {n : Str}
    (hn : ∀ a ∈ as, a.columnName ≠ n) : valueIn schema row' n = valueIn schema row n := by
  unfold valueIn evaluateValueExpression
  dsimp only
  cases hi : findColumnIndex schema n with
  | none => rfl
  | some i =>
      dsimp only
      rw [assignValues_at h hi hn]

/-- **Assignments that do not disturb each other are simultaneous.**  By
induction on the list; the row of the induction hypothesis is the one the first
assignment has changed. -/
theorem assignValues_simultaneous {old : RowData} (hnodup : (as.map (·.columnName)).Nodup)
    (hold : ∀ b ∈ as, evaluateValueExpression b.value schema row
      = evaluateValueExpression b.value schema old)
    (hindependent : ∀ a ∈ as, ∀ b ∈ as, a.columnName ≠ b.columnName →
      columnRead b.value = some a.columnName →
      evaluateValueExpression a.value schema old = valueIn schema row a.columnName)
    (h : assignValues schema as row = .ok row') :
    ∀ a ∈ as, valueIn schema row' a.columnName
      = evaluateValueExpression a.value schema old := by
  induction as generalizing row with
  | nil =>
      intro a ha
      cases ha
  | cons a as ih =>
      obtain ⟨hfresh, hnodup⟩ := List.nodup_cons.mp hnodup
      have hne : ∀ b ∈ as, b.columnName ≠ a.columnName := by
        intro b hb heq
        exact hfresh (List.mem_map.mpr ⟨b, hb, heq⟩)
      obtain ⟨i, v, hi, hlt, hv, hrest⟩ := assignValues_cons_eq_ok.mp h
      have hset := valueIn_set hi hlt v
      have hva : evaluateValueExpression a.value schema old = .ok v := by
        rw [← hold a (by simp), hv]
      have hold' : ∀ b ∈ as,
          evaluateValueExpression b.value schema { row with values := row.values.set i v }
            = evaluateValueExpression b.value schema old := by
        intro b hb
        rw [← hold b (List.mem_cons_of_mem a hb)]
        apply evaluate_congr
        intro n hread
        rw [hset n]
        by_cases hn : n = a.columnName
        · -- the column just assigned had this value before
          subst hn
          rw [if_pos rfl, ← hva]
          exact hindependent a (by simp) b (List.mem_cons_of_mem a hb) (hne b hb).symm hread
        · rw [if_neg hn]
      have hindependent' : ∀ c ∈ as, ∀ b ∈ as, c.columnName ≠ b.columnName →
          columnRead b.value = some c.columnName →
          evaluateValueExpression c.value schema old
            = valueIn schema { row with values := row.values.set i v } c.columnName := by
        intro c hc b hb hcb hread
        rw [hset c.columnName, if_neg (hne c hc)]
        exact hindependent c (List.mem_cons_of_mem a hc) b (List.mem_cons_of_mem a hb) hcb hread
      intro b hb
      rcases List.mem_cons.mp hb with rfl | hb
      · rw [assignValues_valueIn hrest hne, hset, if_pos rfl, hva]
      · exact ih hnodup hold' hindependent' hrest b hb

/-- The values of the assigned columns determine the row. -/
theorem assignValues_ext {row₁ row₂ : RowData} (hperm : as'.Perm as)
    (h₁ : assignValues schema as row = .ok row₁) (h₂ : assignValues schema as' row = .ok row₂)
    (h : ∀ a ∈ as, valueIn schema row₁ a.columnName = valueIn schema row₂ a.columnName) :
    row₁ = row₂ := by
  obtain ⟨hid₁, hlen₁⟩ := assignValues_ok h₁
  obtain ⟨hid₂, hlen₂⟩ := assignValues_ok h₂
  have hvalues : row₁.values = row₂.values := by
    apply List.ext_getElem?
    intro i
    by_cases hassigned : ∃ a ∈ as, findColumnIndex schema a.columnName = some i
    · obtain ⟨a, ha, hi⟩ := hassigned
      have hlt : i < row.values.length := by
        obtain ⟨⟨j, hj, hlt⟩, -⟩ := assignValues_isOk_iff.mp (isOk_iff.mpr ⟨row₁, h₁⟩) a ha
        rw [hi] at hj
        cases hj
        exact hlt
      have hone : valueIn schema row₁ a.columnName = .ok row₁.values[i] :=
        valueIn_eq_ok.mpr ⟨i, hi, List.getElem?_eq_getElem (hlen₁ ▸ hlt)⟩
      obtain ⟨j, hj, htwo⟩ := valueIn_eq_ok.mp ((h a ha).symm.trans hone)
      rw [hi] at hj
      cases hj
      rw [htwo]
      exact List.getElem?_eq_getElem (hlen₁ ▸ hlt)
    · have hfree : ∀ a ∈ as, findColumnIndex schema a.columnName ≠ some i :=
        fun a ha hi => hassigned ⟨a, ha, hi⟩
      rw [assignValues_getElem? h₁ hfree,
        assignValues_getElem? h₂ fun a ha => hfree a (hperm.mem_iff.mp ha)]
  cases row₁
  cases row₂
  simp_all

/-- Where every order of a list is simultaneous, no assignment reads what
another one changes: put the one that changes first and the reader second. -/
theorem independent_of_simultaneous (hnodup : (as.map (·.columnName)).Nodup)
    (hassignable : Assignable schema as row)
    (h : ∀ as', as'.Perm as → ∀ row', assignValues schema as' row = .ok row' →
      ∀ a ∈ as', valueIn schema row' a.columnName
        = evaluateValueExpression a.value schema row) :
    Independent schema as row := by
  intro a ha b hb hab hread
  have hba : b ≠ a := by
    rintro rfl
    exact hab rfl
  have hb' : b ∈ as.erase a := (List.mem_erase_of_ne hba).mpr hb
  have hperm : (a :: b :: (as.erase a).erase b).Perm as :=
    ((List.perm_cons_erase ha).trans ((List.perm_cons_erase hb').cons a)).symm
  have hnames := (hperm.map (·.columnName)).nodup_iff.mpr hnodup
  obtain ⟨row', hrun⟩ := isOk_iff.mp (assignValues_isOk_iff.mpr (hassignable.perm hperm))
  have hsim := h _ hperm row' hrun
  obtain ⟨i, v, hi, hlt, hv, hrest⟩ := assignValues_cons_eq_ok.mp hrun
  obtain ⟨j, w, hj, hlt', hw, hrest⟩ := assignValues_cons_eq_ok.mp hrest
  -- the second assignment reads the value the first one has just written
  have hwv : w = v := by
    have hcolumn := valueIn_set hi hlt v a.columnName
    rw [if_pos rfl] at hcolumn
    have hsame : evaluateValueExpression b.value schema { row with values := row.values.set i v }
        = valueIn schema { row with values := row.values.set i v } a.columnName := by
      cases hvalue : b.value with
      | columnReference d t n =>
          rw [hvalue] at hread
          cases hread
          rfl
      | _ => rw [hvalue] at hread; cases hread
    rw [hsame, hcolumn] at hw
    exact (Result.ok.inj hw).symm
  have hlast : valueIn schema row' b.columnName = .ok w := by
    rw [assignValues_valueIn hrest ?_, valueIn_set hj hlt', if_pos rfl]
    intro c hc heq
    have hfresh := (List.nodup_cons.mp (List.nodup_cons.mp hnames).2).1
    exact hfresh (List.mem_map.mpr ⟨c, hc, heq⟩)
  have hb'' := hsim b (by simp)
  have hsame : evaluateValueExpression b.value schema row = valueIn schema row a.columnName := by
    cases hvalue : b.value with
    | columnReference d t n =>
        rw [hvalue] at hread
        cases hread
        rfl
    | _ => rw [hvalue] at hread; cases hread
  rw [← hsame, ← hb'', hlast, hwv]
  exact hv

end Lists

/-! ## §3. The statement. -/

section Update

variable {env : Env} {stmt : UpdateStatement} {databaseName : Str} {table : TableRuntime}

/-- The statement with its assignments in another order. -/
def reordered (stmt : UpdateStatement) (assignments : List Assignment) : UpdateStatement :=
  { stmt with assignments := assignments }

/-- The clause of an UPDATE selects the row. -/
def Selects (re : RegexMatch) (schema : TableSchema) (stmt : UpdateStatement) (row : RowData) :
    Prop :=
  passes re schema stmt.whereClause row = .ok true

/-- **What simultaneous assignment means.**  In whatever order the assignments
are written, each one gives its column the value its expression has on the row
before the UPDATE, and the table that results is the same. -/
def Simultaneous (env : Env) (stmt : UpdateStatement) (databaseName : Str) (table : TableRuntime)
    (v : VersionStore) : Prop :=
  ∀ as', as'.Perm stmt.assignments →
    (∀ row ∈ table.heap.scanAll, Selects env.regexMatch table.schema stmt row →
      ∀ row', assignValues table.schema as' row = .ok row' → ∀ a ∈ as',
        valueIn table.schema row' a.columnName
          = evaluateValueExpression a.value table.schema row) ∧
    (executeUpdate env (reordered stmt as') databaseName table v).1
      = (executeUpdate env stmt databaseName table v).1

/-- Rows that get the same values in either order. -/
theorem updateRow_reordered {re : RegexMatch} {schema : TableSchema} {row : RowData}
    {as' : List Assignment} (hperm : as'.Perm stmt.assignments)
    (hnodup : (stmt.assignments.map (·.columnName)).Nodup)
    (h : Selects re schema stmt row → Assignable schema stmt.assignments row →
      Independent schema stmt.assignments row) :
    Agree (· = ·) (updateRow re schema (reordered stmt as') row)
      (updateRow re schema stmt row) := by
  unfold updateRow
  show Agree _ (passes re schema stmt.whereClause row >>= _) _
  cases hpass : passes re schema stmt.whereClause row with
  | error e => trivial
  | fault => trivial
  | ok pass =>
      cases pass with
      | false => rfl
      | true =>
          show Agree _ (assignValues schema as' row >>= _)
            (assignValues schema stmt.assignments row >>= _)
          have hsame : (assignValues schema as' row).isOk
              = (assignValues schema stmt.assignments row).isOk := by
            rw [Bool.eq_iff_iff, assignValues_isOk_iff, assignValues_isOk_iff]
            exact ⟨fun ha => ha.perm hperm.symm, fun ha => ha.perm hperm⟩
          cases h₁ : assignValues schema stmt.assignments row with
          | ok row₁ =>
              have hassignable := assignValues_isOk_iff.mp (isOk_iff.mpr ⟨row₁, h₁⟩)
              have hindependent := h hpass hassignable
              rw [h₁] at hsame
              obtain ⟨row₂, h₂⟩ := isOk_iff.mp hsame
              have hvalues₁ := assignValues_simultaneous hnodup (fun _ _ => rfl) hindependent h₁
              have hvalues₂ := assignValues_simultaneous ((hperm.map _).nodup_iff.mpr hnodup)
                (fun _ _ => rfl) (fun a ha b hb => hindependent a (hperm.mem_iff.mp ha) b
                  (hperm.mem_iff.mp hb)) h₂
              have heq : row₁ = row₂ := assignValues_ext hperm h₁ h₂ fun a ha =>
                (hvalues₁ a ha).trans (hvalues₂ a (hperm.mem_iff.mpr ha)).symm
              rw [h₂, ← heq]
              exact .of_imp (fun _ => rfl) (fun _ hx => hx) fun _ hx => hx
          | error e =>
              rw [h₁] at hsame
              cases h₂ : assignValues schema as' row with
              | ok row₂ => rw [h₂] at hsame; cases hsame
              | error e' => trivial
              | fault => trivial
          | fault =>
              rw [h₁] at hsame
              cases h₂ : assignValues schema as' row with
              | ok row₂ => rw [h₂] at hsame; cases hsame
              | error e' => trivial
              | fault => trivial

/-- The rows an UPDATE leaves, by induction on the rows; the log plays no part
in them. -/
theorem updateRows_reordered {schema : TableSchema} {stmt' : UpdateStatement}
    {rows : List RowData} (h : ∀ row ∈ rows, Agree (· = ·)
      (updateRow env.regexMatch schema stmt' row) (updateRow env.regexMatch schema stmt row))
    (v v' : VersionStore) :
    Agree (· = ·) (updateRows env databaseName schema stmt' rows v).2
      (updateRows env databaseName schema stmt rows v').2 := by
  induction rows generalizing v v' with
  | nil => rfl
  | cons row rows ih =>
      have hrow := h row (by simp)
      have hrest := ih fun r hr => h r (List.mem_cons_of_mem row hr)
      rw [updateRows, updateRows]
      cases h₁ : updateRow env.regexMatch schema stmt row with
      | ok o₁ =>
          rw [h₁] at hrow
          cases h₂ : updateRow env.regexMatch schema stmt' row with
          | ok o₂ =>
              rw [h₂] at hrow
              have heq : o₂ = o₁ := hrow
              subst heq
              cases o₂ with
              | none => exact (hrest v v').map fun p q hpq => by rw [hpq]
              | some row' => exact (hrest _ _).map fun p q hpq => by rw [hpq]
          | error e => rw [h₂] at hrow; cases hrow
          | fault => rw [h₂] at hrow; cases hrow
      | error e =>
          rw [h₁] at hrow
          cases h₂ : updateRow env.regexMatch schema stmt' row with
          | ok o₂ => rw [h₂] at hrow; cases hrow
          | error e' => trivial
          | fault => trivial
      | fault =>
          rw [h₁] at hrow
          cases h₂ : updateRow env.regexMatch schema stmt' row with
          | ok o₂ => rw [h₂] at hrow; cases hrow
          | error e' => trivial
          | fault => trivial

/-- The table an UPDATE leaves is a function of its rows. -/
theorem executeUpdate_table {stmt' : UpdateStatement} {v : VersionStore}
    (h : Agree (· = ·)
      (updateRows env databaseName table.schema stmt' table.heap.scanAll v).2
      (updateRows env databaseName table.schema stmt table.heap.scanAll v).2) :
    (executeUpdate env stmt' databaseName table v).1
      = (executeUpdate env stmt databaseName table v).1 := by
  unfold executeUpdate
  dsimp only
  cases h₁ : (updateRows env databaseName table.schema stmt table.heap.scanAll v).2 with
  | ok p₁ =>
      rw [h₁] at h
      cases h₂ : (updateRows env databaseName table.schema stmt' table.heap.scanAll v).2 with
      | ok p₂ =>
          rw [h₂] at h
          have heq : p₂ = p₁ := h
          subst heq
          unfold replaceRows
          dsimp only
          cases rebuildIndexes table.schema p₂.1 with
          | ok indexes => rfl
          | error e => rfl
          | fault => rfl
      | error e => rw [h₂] at h; cases h
      | fault => rw [h₂] at h; cases h
  | error e =>
      rw [h₁] at h
      cases h₂ : (updateRows env databaseName table.schema stmt' table.heap.scanAll v).2 with
      | ok p₂ => rw [h₂] at h; cases h
      | error e' => rfl
      | fault => rfl
  | fault =>
      rw [h₁] at h
      cases h₂ : (updateRows env databaseName table.schema stmt' table.heap.scanAll v).2 with
      | ok p₂ => rw [h₂] at h; cases h
      | error e' => rfl
      | fault => rfl

/-- **An UPDATE assigns simultaneously exactly where, on every row it selects,
no assignment reads a column that another one changes.** -/
theorem update_simultaneous_iff (env : Env) (stmt : UpdateStatement)
    (hdistinct : (stmt.assignments.map (·.columnName)).Nodup) (databaseName : Str)
    (table : TableRuntime) (v : VersionStore) :
    Simultaneous env stmt databaseName table v ↔
      ∀ row ∈ table.heap.scanAll, Selects env.regexMatch table.schema stmt row →
        Assignable table.schema stmt.assignments row →
        Independent table.schema stmt.assignments row := by
  constructor
  · intro h row hrow hselects hassignable
    exact independent_of_simultaneous hdistinct hassignable fun as' hperm =>
      (h as' hperm).1 row hrow hselects
  · intro h as' hperm
    have hnodup := (hperm.map (·.columnName)).nodup_iff.mpr hdistinct
    constructor
    · intro row hrow hselects row' hrun
      have hassignable := assignValues_isOk_iff.mp (isOk_iff.mpr ⟨row', hrun⟩)
      have hindependent := h row hrow hselects (hassignable.perm hperm.symm)
      exact assignValues_simultaneous hnodup (fun _ _ => rfl)
        (fun a ha b hb => hindependent a (hperm.mem_iff.mp ha) b (hperm.mem_iff.mp hb)) hrun
    · apply executeUpdate_table
      apply updateRows_reordered
      intro row hrow
      exact updateRow_reordered hperm hdistinct (h row hrow)

end Update

/-! ## §4. One row, two columns. -/

/-- Two columns of numbers and the row `(1, 2)`. -/
def pairTable : TableRuntime where
  schema := ⟨str "d", str "t",
    [⟨str "a", .int64, .none, none⟩, ⟨str "b", .int64, .none, none⟩], []⟩
  heap := heapOf [⟨some 1, [.int 1, .int 2]⟩]
  indexes := Dict.empty

/-- The value of the column `n`. -/
def columnOf (n : String) : Expression := .columnReference none none (str n)

/-- `UPDATE t SET a = b;` -/
def copyUpdate : UpdateStatement := ⟨⟨none, str "t"⟩, [⟨str "a", columnOf "b"⟩], none⟩

/-- `UPDATE t SET a = b, b = a;` -/
def swapUpdate : UpdateStatement :=
  ⟨⟨none, str "t"⟩, [⟨str "a", columnOf "b"⟩, ⟨str "b", columnOf "a"⟩], none⟩

/-- One assignment alone is simultaneous. -/
theorem update_simultaneous_iff_copy :
    Simultaneous sampleEnv copyUpdate (str "d") pairTable VersionStore.empty := by
  refine (update_simultaneous_iff sampleEnv copyUpdate (by decide) (str "d") pairTable
    VersionStore.empty).mpr ?_
  intro row _ _ _ a ha b hb hab
  rw [List.mem_singleton.mp ha, List.mem_singleton.mp hb] at hab
  exact absurd rfl hab

/-- Two columns cannot be exchanged: both end with the value of `b`. -/
theorem swap_assigns_one_value :
    parse (str "UPDATE t SET a = b, b = a;") = .ok (.update swapUpdate) ∧
      assignValues pairTable.schema swapUpdate.assignments ⟨some 1, [.int 1, .int 2]⟩
        = .ok ⟨some 1, [.int 2, .int 2]⟩ ∧
      evaluateValueExpression (columnOf "a") pairTable.schema ⟨some 1, [.int 1, .int 2]⟩
        = .ok (.int 1) ∧
      ¬ Simultaneous sampleEnv swapUpdate (str "d") pairTable VersionStore.empty := by
  have hrun : assignValues pairTable.schema swapUpdate.assignments ⟨some 1, [.int 1, .int 2]⟩
      = .ok ⟨some 1, [.int 2, .int 2]⟩ := by decide
  have hvalue : evaluateValueExpression (columnOf "a") pairTable.schema
      ⟨some 1, [.int 1, .int 2]⟩ = .ok (.int 1) := by decide
  refine ⟨by decide +kernel, hrun, hvalue, fun h => ?_⟩
  have hb := (h swapUpdate.assignments (List.Perm.refl _)).1 ⟨some 1, [.int 1, .int 2]⟩
    (by decide) rfl _ hrun ⟨str "b", columnOf "a"⟩ (by decide)
  rw [hvalue] at hb
  exact absurd hb (by decide)

end CustomDbms.Execution
