/-
  CustomDbms.Execution.ColumnValues
  ─────────────────────────────────
  **THE VALUE OF ONE COLUMN.**

  An INSERT gives a column the literal it names for it, an UPDATE leaves a
  column it does not assign; defaults stand in for NULL only.
-/
import CustomDbms.Execution.RowValues

namespace CustomDbms.Execution

open CustomDbms.Common CustomDbms.Catalog CustomDbms.Core CustomDbms.Lib CustomDbms.Parser

/-! ## §1. Validation. -/

/-- A value other than NULL passes unchanged. -/
theorem validateValues_at {cs : List Catalog.ColumnDefinition} {vs vs' : List Value}
    (h : validateValues cs vs = .ok vs') {i : Nat} {v : Value} (hv : vs[i]? = some v)
    (hnull : isNull v = false) : vs'[i]? = some v := by
  induction cs generalizing vs vs' i with
  | nil =>
      cases h
      exact hv
  | cons c cs ih =>
      cases vs with
      | nil => cases hv
      | cons w vs =>
          rw [validateValues] at h
          split at h
          · obtain ⟨rest, hrest, heq⟩ := Result.bind_eq_ok.mp h
            cases heq
            cases i with
            | zero =>
                rw [List.getElem?_cons_zero] at hv ⊢
                cases hv
                rw [withDefault, hnull]
                rfl
            | succ i =>
                rw [List.getElem?_cons_succ] at hv ⊢
                exact ih hrest hv
          · cases h

theorem validateRowAgainstSchema_at {row row' : RowData} {schema : TableSchema}
    (h : validateRowAgainstSchema row schema = .ok row') {i : Nat} {v : Value}
    (hv : row.values[i]? = some v) (hnull : isNull v = false) : row'.values[i]? = some v := by
  obtain ⟨vs, hvs, heq⟩ := Result.bind_eq_ok.mp h
  cases heq
  exact validateValues_at hvs hv hnull

/-! ## §2. INSERT. -/

theorem findColumnIndex_name {schema : TableSchema} {n : Str} {i : Nat}
    (h : findColumnIndex schema n = some i) : schema.columns[i]?.map (·.name) = some n := by
  obtain ⟨hlt, hname, -⟩ := List.findIdx?_eq_some_iff_getElem.mp h
  rw [List.getElem?_eq_getElem hlt, Option.map_some, of_decide_eq_true hname]

/-- Different names are different columns. -/
theorem findColumnIndex_inj {schema : TableSchema} {m n : Str} {i : Nat}
    (hm : findColumnIndex schema m = some i) (hn : findColumnIndex schema n = some i) : m = n := by
  have heq := (findColumnIndex_name hm).symm.trans (findColumnIndex_name hn)
  exact Option.some.inj heq

/-- `input_to_schema`, name by name. -/
theorem insertColumnMap_forall₂ {schema : TableSchema} {names : List Str} {map : List Nat}
    (h : insertColumnMap schema names = .ok map) :
    List.Forall₂ (fun n i => findColumnIndex schema n = some i) names map := by
  induction names generalizing map with
  | nil =>
      cases h
      exact .nil
  | cons n names ih =>
      rw [insertColumnMap, Result.mapList_cons] at h
      obtain ⟨i, hi, h⟩ := Result.bind_eq_ok.mp h
      obtain ⟨rest, hrest, h⟩ := Result.bind_eq_ok.mp h
      cases h
      refine .cons ?_ (ih hrest)
      split at hi
      · rename_i j hj
        cases hi
        exact hj
      · cases hi

theorem exists_of_forall₂ {α β : Type} {R : α → β → Prop} {as : List α} {bs : List β}
    (h : List.Forall₂ R as bs) {b : β} (hb : b ∈ bs) : ∃ a ∈ as, R a b := by
  induction h with
  | nil => cases hb
  | @cons a b' as bs hab _ ih =>
      rcases List.mem_cons.mp hb with rfl | hb
      · exact ⟨a, by simp, hab⟩
      · obtain ⟨x, hx, hr⟩ := ih hb
        exact ⟨x, List.mem_cons_of_mem _ hx, hr⟩

/-- A column that is not named keeps its value. -/
theorem fillRow_other {map : List Nat} {es : List Expression} {vs vs' : List Value}
    (h : fillRow map es vs = .ok vs') {i : Nat} (hi : i ∉ map) : vs'[i]? = vs[i]? := by
  induction es generalizing map vs with
  | nil =>
      rw [fillRow] at h
      cases h
      rfl
  | cons e es ih =>
      cases e with
      | literal v =>
          cases map with
          | nil => cases h
          | cons j js =>
              rw [List.mem_cons, not_or] at hi
              simp only [fillRow] at h
              split at h
              · rw [ih h hi.2, List.getElem?_set_ne (Ne.symm hi.1)]
              · cases h
      | _ => simp [fillRow, Result.makeError] at h

/-- **A named column gets the literal of its position.** -/
theorem fillRow_at {schema : TableSchema} {names : List Str} {map : List Nat}
    (hmap : List.Forall₂ (fun n i => findColumnIndex schema n = some i) names map)
    (hnodup : names.Nodup) {es : List Expression} {vs vs' : List Value}
    (h : fillRow map es vs = .ok vs') {j i : Nat} {n : Str} {v : Value} (hj : names[j]? = some n)
    (hi : findColumnIndex schema n = some i) (hv : es[j]? = some (.literal v)) :
    vs'[i]? = some v := by
  induction hmap generalizing es vs j with
  | nil => cases hj
  | @cons m k names map hk hrest ih =>
      rw [List.nodup_cons] at hnodup
      cases es with
      | nil => cases hv
      | cons e es =>
          cases e with
          | literal w =>
              simp only [fillRow] at h
              split at h
              · rename_i hlt
                cases j with
                | zero =>
                    cases hj
                    cases hv
                    obtain rfl : k = i := Option.some.inj (hk.symm.trans hi)
                    have hother : k ∉ map := by
                      intro hmem
                      obtain ⟨x, hx, hkx⟩ := exists_of_forall₂ hrest hmem
                      rw [findColumnIndex_inj hk hkx] at hnodup
                      exact hnodup.1 hx
                    rw [fillRow_other h hother, List.getElem?_set_self hlt]
                | succ j => exact ih hnodup.2 h hj hv
              · cases h
          | _ => simp [fillRow, Result.makeError] at h

/-- **A built row has the literal in the column.** -/
theorem buildInsertRow_at {schema : TableSchema} {names : List Str} {map : List Nat}
    (hmap : insertColumnMap schema names = .ok map) (hnodup : names.Nodup)
    {input : List Expression} {row : RowData} (h : buildInsertRow schema map input = .ok row)
    {j i : Nat} {n : Str} {v : Value} (hj : names[j]? = some n)
    (hi : findColumnIndex schema n = some i) (hv : input[j]? = some (.literal v))
    (hnull : isNull v = false) : row.values[i]? = some v := by
  obtain ⟨vs, hvs, hvalid⟩ := Result.bind_eq_ok.mp h
  exact validateRowAgainstSchema_at hvalid
    (fillRow_at (insertColumnMap_forall₂ hmap) hnodup hvs hj hi hv) hnull

/-! ## §3. UPDATE and DELETE. -/

/-- The loop leaves every position that no assignment names. -/
theorem assignValues_getElem? {schema : TableSchema} {as : List Assignment} {row row' : RowData}
    (h : assignValues schema as row = .ok row') {i : Nat}
    (hn : ∀ a ∈ as, findColumnIndex schema a.columnName ≠ some i) :
    row'.values[i]? = row.values[i]? := by
  induction as generalizing row with
  | nil =>
      cases h
      rfl
  | cons a as ih =>
      rw [assignValues] at h
      cases hk : findColumnIndex schema a.columnName with
      | none =>
          rw [hk] at h
          cases h
      | some k =>
          rw [hk] at h
          obtain ⟨v, -, h⟩ := Result.bind_eq_ok.mp h
          have hne : k ≠ i := by
            rintro rfl
            exact hn a (by simp) hk
          by_cases hlt : k < row.values.length
          · rw [if_pos hlt] at h
            rw [ih h fun b hb => hn b (List.mem_cons_of_mem _ hb)]
            exact List.getElem?_set_ne hne
          · rw [if_neg hlt] at h
            cases h

theorem assignValues_at {schema : TableSchema} {as : List Assignment} {row row' : RowData}
    (h : assignValues schema as row = .ok row') {n : Str} {i : Nat}
    (hi : findColumnIndex schema n = some i) (hn : ∀ a ∈ as, a.columnName ≠ n) :
    row'.values[i]? = row.values[i]? := by
  refine assignValues_getElem? h fun a ha hk => ?_
  exact hn a ha (findColumnIndex_inj hk hi)

/-- The columns a statement assigns. -/
def assignedColumns : Statement → List Str
  | .update stmt => stmt.assignments.map (·.columnName)
  | _ => []

/-- **A write leaves the value of a column it does not assign.** -/
theorem written_at {re : RegexMatch} {schema : TableSchema} {statement : Statement}
    {vs vs' : List Value} (h : written re schema statement vs = some vs') {n : Str} {i : Nat}
    (hi : findColumnIndex schema n = some i) (hn : n ∉ assignedColumns statement) {v : Value}
    (hv : vs[i]? = some v) (hnull : isNull v = false) : vs'[i]? = some v := by
  unfold written writtenValues at h
  cases statement with
  | update stmt =>
      have hassigned : ∀ a ∈ stmt.assignments, a.columnName ≠ n := by
        rintro a ha rfl
        exact hn (List.mem_map_of_mem ha)
      dsimp only at h
      cases hrow : updateRow re schema stmt (rowOf vs) with
      | error e => rw [hrow] at h; cases h
      | fault => rw [hrow] at h; cases h
      | ok o =>
          rw [hrow] at h
          cases h
          cases o with
          | none => exact hv
          | some row' =>
              unfold updateRow at hrow
              obtain ⟨pass, -, hrow⟩ := Result.bind_eq_ok.mp hrow
              by_cases hpass : pass = true
              · rw [if_pos hpass] at hrow
                obtain ⟨assigned, hassign, hrow⟩ := Result.bind_eq_ok.mp hrow
                obtain ⟨valid, hvalid, hrow⟩ := Result.bind_eq_ok.mp hrow
                cases hrow
                refine validateRowAgainstSchema_at hvalid ?_ hnull
                rw [assignValues_at hassign hi hassigned]
                exact hv
              · rw [if_neg hpass] at hrow
                cases hrow
  | delete stmt =>
      dsimp only at h
      cases hpass : passes re schema stmt.whereClause (rowOf vs) with
      | error e => rw [hpass] at h; cases h
      | fault => rw [hpass] at h; cases h
      | ok pass =>
          rw [hpass] at h
          cases pass with
          | true => cases h
          | false =>
              cases h
              exact hv
  | _ =>
      cases h
      exact hv

end CustomDbms.Execution
