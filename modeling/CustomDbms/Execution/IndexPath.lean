/-
  CustomDbms.Execution.IndexPath
  ──────────────────────────────
  **THE INDEX PATH OF `FilterRows`.**

  Keys are ordered as the values they stand for (`encodeIndexKey_lt`): the
  letter in front is the column's, a string follows as it is, and an integer
  as sixteen digits of its distance from the least one.  So the ranges
  `FilterRows` scans hold every row the clause selects, and what they hold
  beside is dropped by the clause itself:

    • `filterCandidates_perm` — candidates that cover the selected rows give
      these rows, in some order;
    • `index_path_eq_scan` — on well-typed clauses the index path and the scan
      agree in every table of every run.
-/
import CustomDbms.Core.EngineInvariant
import CustomDbms.Lib.Positional

namespace CustomDbms.Execution

open CustomDbms.Common CustomDbms.Catalog CustomDbms.Core CustomDbms.Index CustomDbms.Lib
open CustomDbms.Parser CustomDbms.Storage

/-! ## §1. The order of keys. -/

theorem hexPadded_eq (width n : Nat) : hexPadded width n = positional 16 hexDigit width n := by
  induction width generalizing n with
  | zero => rfl
  | succ width ih =>
      rw [hexPadded, positional, ih]
      simp [hexDigit]

/-- **Padded hexadecimal numbers are ordered as numbers.** -/
theorem hexPadded_lt (width : Nat) {n m : Nat} (hn : n < 16 ^ width) (hm : m < 16 ^ width) :
    (hexPadded width n < hexPadded width m ↔ n < m) ∧
      (hexPadded width n = hexPadded width m ↔ n = m) := by
  have hdigit : ∀ a < 16, ∀ b < 16, hexDigit a < hexDigit b ↔ a < b := by decide
  rw [hexPadded_eq, hexPadded_eq]
  exact positional_lt (by decide) hdigit width hn hm

/-- The number whose digits stand for an integer. -/
theorem ordered_toNat (i : Int64) :
    ((i.toUInt64 ^^^ ((1 : UInt64) <<< 63)).toNat : Int) = i.toInt + 2 ^ 63 := by
  have hone : ((1 : UInt64) <<< 63).toNat = 2 ^ 63 := by decide
  rw [UInt64.toNat_xor, hone]
  generalize hx : i.toUInt64.toNat = x
  have hlt : x < 2 ^ 64 := hx ▸ i.toUInt64.toNat_lt
  have hdiv : (x ^^^ 2 ^ 63) / 2 ^ 63 = x / 2 ^ 63 ^^^ 1 := by
    rw [Nat.xor_div_two_pow, Nat.div_self (by decide)]
  have hmod : (x ^^^ 2 ^ 63) % 2 ^ 63 = x % 2 ^ 63 := by
    rw [Nat.xor_mod_two_pow, Nat.mod_self, Nat.xor_zero]
  have htop : x / 2 ^ 63 = 0 ∨ x / 2 ^ 63 = 1 := by omega
  have hint : i.toInt = if 2 * x < 2 ^ 64 then (x : Int) else x - 2 ^ 64 := by
    rw [← hx]
    exact BitVec.toInt_eq_toNat_cond i.toBitVec
  rw [hint]
  rcases htop with htop | htop
  · rw [htop, show 0 ^^^ 1 = 1 by decide] at hdiv
    rw [if_pos (by omega)]
    omega
  · rw [htop, show 1 ^^^ 1 = 0 by decide] at hdiv
    rw [if_neg (by omega)]
    omega

/-- The difference `CompareValues` takes does not wrap. -/
def NoWrap : Value → Value → Prop
  | .int a, .int b => -(2 ^ 63 : Int) ≤ a.toInt - b.toInt ∧ a.toInt - b.toInt < 2 ^ 63
  | _, _ => True

instance (v w : Value) : Decidable (NoWrap v w) := by
  cases v <;> cases w <;> unfold NoWrap <;> infer_instance

/-- The sixteen digits of an integer. -/
def intDigits (a : Int64) : Str := hexPadded 16 (a.toUInt64 ^^^ ((1 : UInt64) <<< 63)).toNat

theorem encodeIndexKey_int {a : Int64} {type : ValueType} {k : Str} :
    encodeIndexKey (.int a) type = some k ↔ type = .int64 ∧ k = str "I" ++ intDigits a := by
  by_cases h : type = .int64
  · simp [encodeIndexKey, intDigits, h, eq_comm]
  · simp [encodeIndexKey, h]

theorem encodeIndexKey_string {s : Str} {type : ValueType} {k : Str} :
    encodeIndexKey (.string s) type = some k ↔ type ≠ .int64 ∧ k = str "S" ++ s := by
  by_cases h : type = .int64
  · simp [encodeIndexKey, h]
  · simp [encodeIndexKey, h, eq_comm]

theorem intDigits_lt (a b : Int64) :
    (intDigits a < intDigits b ↔ a.toInt < b.toInt) ∧
      (intDigits a = intDigits b ↔ a.toInt = b.toInt) := by
  have hx := (a.toUInt64 ^^^ ((1 : UInt64) <<< 63)).toNat_lt
  have hy := (b.toUInt64 ^^^ ((1 : UInt64) <<< 63)).toNat_lt
  have ha := ordered_toNat a
  have hb := ordered_toNat b
  obtain ⟨hlt, heq⟩ := hexPadded_lt 16 hx hy
  rw [intDigits, intDigits, hlt, heq]
  omega

theorem compareValues_int {a b : Int64} (h : NoWrap (.int a) (.int b)) :
    compareValues (.int a) (.int b) = some (a.toInt - b.toInt) := by
  have hsub : (a - b).toInt = a.toInt - b.toInt := by
    rw [Int64.toInt_sub]
    apply Int.bmod_eq_of_le
    · exact h.1
    · exact h.2
  rw [compareValues, hsub]

/-- **Keys are ordered as `CompareValues` orders values.** -/
theorem encodeIndexKey_lt {v w : Value} {type : ValueType} {k l : Str}
    (hv : isNull v = false) (hw : isNull w = false) (hk : encodeIndexKey v type = some k)
    (hl : encodeIndexKey w type = some l) (hwrap : NoWrap v w) :
    ∃ d, compareValues v w = some d ∧ (d < 0 ↔ k < l) ∧ (d = 0 ↔ k = l) := by
  cases v with
  | null => cases hv
  | int a =>
      obtain ⟨htype, rfl⟩ := encodeIndexKey_int.mp hk
      cases w with
      | null => cases hw
      | string t => exact absurd htype (encodeIndexKey_string.mp hl).1
      | int b =>
          obtain ⟨-, rfl⟩ := encodeIndexKey_int.mp hl
          refine ⟨_, compareValues_int hwrap, ?_⟩
          rw [append_left_lt_iff, List.append_right_inj, (intDigits_lt a b).1,
            (intDigits_lt a b).2]
          omega
  | string s =>
      obtain ⟨htype, rfl⟩ := encodeIndexKey_string.mp hk
      cases w with
      | null => cases hw
      | int b => exact absurd (encodeIndexKey_int.mp hl).1 htype
      | string t =>
          obtain ⟨-, rfl⟩ := encodeIndexKey_string.mp hl
          refine ⟨_, rfl, ?_⟩
          rw [append_left_lt_iff, List.append_right_inj]
          unfold compareStrings
          split
          · rename_i hlt
            simp [hlt, ne_of_lt hlt]
          · rename_i hlt
            split <;> simp_all

/-! ## §2. Candidates and the scan. -/

section Filtering

variable {re : RegexMatch} {schema : TableSchema} {clause : Option Expression}
variable {rows : List RowData} {p : RowData → Bool}

theorem filterScan_eq (h : ∀ row ∈ rows, passes re schema clause row = .ok (p row)) :
    filterScan re schema clause rows = .ok (rows.filter p) := by
  induction rows with
  | nil => rfl
  | cons row rows ih =>
      rw [filterScan, h row (by simp), Result.ok_bind, ih fun r hr => h r (by simp [hr]),
        Result.ok_bind]
      cases hp : p row <;> simp [hp]

/-- `row_lookup`. -/
def lookupRow (rows : List RowData) (i : RowId) : Option RowData :=
  rows.find? fun row => decide (row.rowId = i)

theorem mem_of_lookupRow {i : RowId} {row : RowData} (h : lookupRow rows i = some row) :
    row ∈ rows ∧ row.rowId = i :=
  ⟨List.mem_of_find?_eq_some h, by simpa using List.find?_some h⟩

theorem lookupRow_eq (hnodup : (rows.map (·.rowId)).Nodup) {row : RowData} (hrow : row ∈ rows) :
    lookupRow rows row.rowId = some row := by
  cases hl : lookupRow rows row.rowId with
  | none =>
      have := List.find?_eq_none.mp hl row hrow
      simp at this
  | some row' =>
      obtain ⟨hmem, hid⟩ := mem_of_lookupRow hl
      rw [List.inj_on_of_nodup_map hnodup hmem hrow hid]

theorem filterCandidates_eq (h : ∀ row ∈ rows, passes re schema clause row = .ok (p row))
    (ids : List RowId) :
    filterCandidates re schema clause rows ids
      = .ok ((ids.filterMap (lookupRow rows)).filter p) := by
  induction ids with
  | nil => rfl
  | cons i ids ih =>
      rw [List.filterMap_cons]
      unfold filterCandidates
      rw [← lookupRow]
      cases hl : lookupRow rows i with
      | none => exact ih
      | some row =>
          dsimp only
          rw [h row (mem_of_lookupRow hl).1, Result.ok_bind, ih, Result.ok_bind]
          cases hp : p row <;> simp [hp]

/-- **Candidates that cover the selected rows give the selected rows.** -/
theorem filterCandidates_perm (hnodup : (rows.map (·.rowId)).Nodup) {ids : List RowId}
    (hids : ids.Nodup) (hcover : ∀ row ∈ rows, p row = true → row.rowId ∈ ids) :
    ((ids.filterMap (lookupRow rows)).filter p).Perm (rows.filter p) := by
  have hfound : (ids.filterMap (lookupRow rows)).Nodup := by
    apply hids.filterMap
    intro i j row hi hj
    exact (mem_of_lookupRow hi).2.symm.trans (mem_of_lookupRow hj).2
  refine (List.perm_ext_iff_of_nodup (hfound.filter p) (hnodup.of_map.filter p)).mpr ?_
  intro row
  rw [List.mem_filter, List.mem_filter, List.mem_filterMap]
  constructor
  · rintro ⟨⟨i, -, hl⟩, hp⟩
    exact ⟨(mem_of_lookupRow hl).1, hp⟩
  · rintro ⟨hrow, hp⟩
    exact ⟨⟨row.rowId, hcover row hrow hp, lookupRow_eq hnodup hrow⟩, hp⟩

end Filtering

/-! ## §3. The ranges. -/

section Ranges

variable {schema : TableSchema} {rows : List RowData} {n : Str} {tree : IndexTree}

/-- **A range scan finds the rows with a key in the range, each once.** -/
theorem scanRowIds_spec (h : IndexOk schema rows n tree) (hnodup : (rows.map (·.rowId)).Nodup)
    (lower upper : Str) :
    ∃ ids, scanRowIds tree lower upper = .ok ids ∧ ids.Nodup ∧
      ∀ row ∈ rows, row.rowId ∈ ids ↔
        ∃ k, indexKey schema n row = some k ∧ lower ≤ k ∧ k < upper := by
  have hM : 1 ≤ tree.maxKeysPerNode := by rw [h.order]; decide
  have hscan : scanRowIds tree lower upper
      = .ok ((entriesBetween lower upper tree.entries).flatMap (·.rowIds)) := by
    rw [scanRowIds, BStarPlusTree.rangeScan_spec hM h.valid]
    rfl
  refine ⟨_, hscan, ?_, ?_⟩
  · -- entries have different keys, so they stand for different rows
    rw [List.nodup_flatMap]
    constructor
    · intro entry hentry
      obtain ⟨r, -, -, hids⟩ := (h.mem_entries entry).mp (List.mem_of_mem_filter hentry)
      simp [hids]
    · have hsorted : (entriesBetween lower upper tree.entries).Pairwise
          fun e e' => e.key < e'.key := ((h.valid.sorted hM).1).sublist List.filter_sublist
      refine hsorted.imp_of_mem ?_
      intro e e' he he' hlt i hi hi'
      obtain ⟨r, hr, hk, hids⟩ := (h.mem_entries e).mp (List.mem_of_mem_filter he)
      obtain ⟨r', hr', hk', hids'⟩ := (h.mem_entries e').mp (List.mem_of_mem_filter he')
      simp only [hids, List.mem_singleton] at hi
      simp only [hids', List.mem_singleton] at hi'
      have hrr : r = r' := List.inj_on_of_nodup_map hnodup hr hr' (hi.symm.trans hi')
      rw [hrr, hk'] at hk
      exact absurd (Option.some.inj hk) (ne_of_gt hlt)
  · intro row hrow
    rw [List.mem_flatMap]
    constructor
    · rintro ⟨entry, hentry, hid⟩
      obtain ⟨hmem, hbetween⟩ := List.mem_filter.mp hentry
      obtain ⟨r, hr, hk, hids⟩ := (h.mem_entries entry).mp hmem
      rw [hids, List.mem_singleton] at hid
      obtain rfl : row = r := List.inj_on_of_nodup_map hnodup hrow hr hid
      exact ⟨entry.key, hk, by simpa using hbetween⟩
    · rintro ⟨k, hk, hlo, hhi⟩
      refine ⟨⟨k, [row.rowId]⟩, ?_, by simp⟩
      exact List.mem_filter.mpr ⟨(h.mem_entries _).mpr ⟨row, hrow, hk, rfl⟩, by simp [hlo, hhi]⟩

/-- What the operator asks of a key. -/
def KeySelected (op : ComparisonOperator) (k encoded : Str) : Prop :=
  match op with
  | .equal => k = encoded
  | .notEqual => k ≠ encoded
  | .less => k < encoded
  | .greater => encoded < k
  | .lessEqual => k ≤ encoded
  | .greaterEqual => encoded ≤ k

theorem lt_append_xFF (encoded : Str) : encoded < encoded ++ [xFF] := by
  induction encoded with
  | nil => exact List.nil_lt_cons _ _
  | cons c encoded ih => rw [List.cons_append, List.cons_lt_cons_iff]; exact Or.inr ⟨rfl, ih⟩

/-- No key reaches the upper end of the open ranges. -/
theorem encodeIndexKey_lt_xFF {v : Value} {type : ValueType} {k : Str} (hnull : isNull v = false)
    (hk : encodeIndexKey v type = some k) : k < [xFF, xFF, xFF, xFF] := by
  cases v with
  | null => cases hnull
  | int a =>
      rw [(encodeIndexKey_int.mp hk).2]
      exact List.cons_lt_cons_iff.mpr (Or.inl (by decide))
  | string s =>
      rw [(encodeIndexKey_string.mp hk).2]
      exact List.cons_lt_cons_iff.mpr (Or.inl (by decide))

theorem indexKey_lt_xFF {row : RowData} {k : Str} (h : indexKey schema n row = some k) :
    k < [xFF, xFF, xFF, xFF] := by
  obtain ⟨_, c, v, -, -, -, hnull, hk⟩ := indexKey_eq_some.mp h
  exact encodeIndexKey_lt_xFF hnull hk

/-- **The candidates of a comparison cover what it selects.** -/
theorem comparisonCandidates_spec (h : IndexOk schema rows n tree)
    (hnodup : (rows.map (·.rowId)).Nodup) (op : ComparisonOperator) (encoded : Str) :
    (op = .notEqual ∧ comparisonCandidates tree op encoded = .ok none) ∨
      ∃ ids, comparisonCandidates tree op encoded = .ok (some ids) ∧ ids.Nodup ∧
        ∀ row ∈ rows, ∀ k, indexKey schema n row = some k → KeySelected op k encoded →
          row.rowId ∈ ids := by
  -- the ranges below and above the literal
  have hbelow : ∃ ids, some <$> scanRowIds tree [] (encoded ++ [xFF]) = .ok (some ids) ∧
      ids.Nodup ∧ ∀ row ∈ rows, ∀ k, indexKey schema n row = some k → k ≤ encoded →
        row.rowId ∈ ids := by
    obtain ⟨ids, hscan, hids, hmem⟩ := scanRowIds_spec h hnodup [] (encoded ++ [xFF])
    refine ⟨ids, by rw [hscan]; rfl, hids, ?_⟩
    intro row hrow k hk hle
    exact (hmem row hrow).mpr ⟨k, hk, le_of_not_gt (List.not_lt_nil k),
      lt_of_le_of_lt hle (lt_append_xFF encoded)⟩
  have habove : ∃ ids, some <$> scanRowIds tree encoded [xFF, xFF, xFF, xFF] = .ok (some ids) ∧
      ids.Nodup ∧ ∀ row ∈ rows, ∀ k, indexKey schema n row = some k → encoded ≤ k →
        row.rowId ∈ ids := by
    obtain ⟨ids, hscan, hids, hmem⟩ := scanRowIds_spec h hnodup encoded [xFF, xFF, xFF, xFF]
    refine ⟨ids, by rw [hscan]; rfl, hids, ?_⟩
    intro row hrow k hk hle
    exact (hmem row hrow).mpr ⟨k, hk, hle, indexKey_lt_xFF hk⟩
  cases op with
  | notEqual => exact Or.inl ⟨rfl, rfl⟩
  | equal =>
      refine Or.inr ⟨rowsWithKey schema n rows encoded, ?_, ?_, ?_⟩
      · rw [comparisonCandidates, h.find]
        rfl
      · exact hnodup.sublist (List.filter_sublist.map _)
      · intro row hrow k hk hsel
        rw [h.rowsWithKey_eq hrow (hk.trans (congrArg some hsel))]
        exact List.mem_singleton_self _
  | less =>
      obtain ⟨ids, heq, hids, hmem⟩ := hbelow
      exact Or.inr ⟨ids, heq, hids, fun row hrow k hk hsel => hmem row hrow k hk (le_of_lt hsel)⟩
  | lessEqual =>
      obtain ⟨ids, heq, hids, hmem⟩ := hbelow
      exact Or.inr ⟨ids, heq, hids, hmem⟩
  | greater =>
      obtain ⟨ids, heq, hids, hmem⟩ := habove
      exact Or.inr ⟨ids, heq, hids, fun row hrow k hk hsel => hmem row hrow k hk (le_of_lt hsel)⟩
  | greaterEqual =>
      obtain ⟨ids, heq, hids, hmem⟩ := habove
      exact Or.inr ⟨ids, heq, hids, hmem⟩

end Ranges

/-! ## §4. Index path and scan. -/

/-- The clauses with an index path, over the column they name and with the
literals they compare it with. -/
inductive IndexClause (column : Str) : List Value → Expression → Prop where
  | comparison (op : ComparisonOperator) (database table : Option Str) (v : Value) :
      IndexClause column [v]
        (.binaryComparison op (.columnReference database table column) (.literal v))
  | between (database table : Option Str) (lower upper : Value) :
      IndexClause column [lower, upper]
        (.between (.columnReference database table column) (.literal lower) (.literal upper))

section Clauses

variable {schema : TableSchema} {i : Nat} {c : Catalog.ColumnDefinition} {row : RowData}
variable {v w : Value} {k l : Str}

theorem getValueType_eq_of_encode (hv : isNull v = false) (hw : isNull w = false)
    (hk : encodeIndexKey v c.type = some k) (hl : encodeIndexKey w c.type = some l) :
    getValueType v = getValueType w := by
  cases v with
  | null => cases hv
  | int a =>
      cases w with
      | null => cases hw
      | int b => rfl
      | string t => exact absurd (encodeIndexKey_int.mp hk).1 (encodeIndexKey_string.mp hl).1
  | string s =>
      cases w with
      | null => cases hw
      | int b => exact absurd (encodeIndexKey_int.mp hl).1 (encodeIndexKey_string.mp hk).1
      | string t => rfl

theorem evaluate_columnReference (hi : findColumnIndex schema c.name = some i)
    (hrow : row.values[i]? = some v) (database table : Option Str) :
    evaluateValueExpression (.columnReference database table c.name) schema row = .ok v := by
  simp [evaluateValueExpression, hi, hrow]

/-- **A comparison selects by key.** -/
theorem evaluatePredicate_comparison (re : RegexMatch) (op : ComparisonOperator)
    (hi : findColumnIndex schema c.name = some i) (hrow : row.values[i]? = some v)
    (hv : isNull v = false) (hw : isNull w = false) (hk : encodeIndexKey v c.type = some k)
    (hl : encodeIndexKey w c.type = some l) (hwrap : NoWrap v w) (database table : Option Str) :
    ∃ b, evaluatePredicate re schema row
        (.binaryComparison op (.columnReference database table c.name) (.literal w)) = .ok b ∧
      (b = true → KeySelected op k l) := by
  obtain ⟨d, hd, hlt, heq⟩ := encodeIndexKey_lt hv hw hk hl hwrap
  have htype := getValueType_eq_of_encode hv hw hk hl
  refine ⟨compareWith op d, ?_, ?_⟩
  · rw [evaluatePredicate, evaluate_columnReference hi hrow]
    simp [evaluateValueExpression, htype, hd]
  · cases op with
    | equal => exact fun h => heq.mp (of_decide_eq_true h)
    | notEqual => exact fun h hkl => of_decide_eq_true h (heq.mpr hkl)
    | less => exact fun h => hlt.mp (of_decide_eq_true h)
    | greater =>
        intro h
        have hpos : 0 < d := of_decide_eq_true h
        have hle : l ≤ k := not_lt.mp fun hkl => absurd (hlt.mpr hkl) (by omega)
        exact lt_of_le_of_ne hle fun hkl => absurd (heq.mpr hkl.symm) (by omega)
    | lessEqual =>
        intro h
        rcases Int.lt_or_eq_of_le (of_decide_eq_true h) with hneg | hzero
        · exact le_of_lt (hlt.mp hneg)
        · exact le_of_eq (heq.mp hzero)
    | greaterEqual =>
        intro h
        have hnonneg : 0 ≤ d := of_decide_eq_true h
        exact not_lt.mp fun hkl => absurd (hlt.mpr hkl) (by omega)

/-- **BETWEEN selects the keys of its half-open range.** -/
theorem evaluatePredicate_between (re : RegexMatch) {lower upper : Value} {lk uk : Str}
    (hi : findColumnIndex schema c.name = some i) (hrow : row.values[i]? = some v)
    (hv : isNull v = false) (hlo : isNull lower = false) (hup : isNull upper = false)
    (hk : encodeIndexKey v c.type = some k) (hlk : encodeIndexKey lower c.type = some lk)
    (huk : encodeIndexKey upper c.type = some uk) (hwl : NoWrap v lower) (hwu : NoWrap v upper)
    (database table : Option Str) :
    ∃ b, evaluatePredicate re schema row (.between (.columnReference database table c.name)
        (.literal lower) (.literal upper)) = .ok b ∧ (b = true → lk ≤ k ∧ k < uk) := by
  obtain ⟨d, hd, hltd, -⟩ := encodeIndexKey_lt hv hlo hk hlk hwl
  obtain ⟨f, hf, hltf, -⟩ := encodeIndexKey_lt hv hup hk huk hwu
  have htl := getValueType_eq_of_encode hv hlo hk hlk
  have htu := getValueType_eq_of_encode hv hup hk huk
  refine ⟨decide (0 ≤ d) && decide (f < 0), ?_, ?_⟩
  · rw [evaluatePredicate, evaluate_columnReference hi hrow]
    simp [evaluateValueExpression, operand, evaluateBetween, ← htl, ← htu, hd, hf]
  · intro h
    obtain ⟨hnonneg, hneg⟩ : 0 ≤ d ∧ f < 0 := by simpa using h
    exact ⟨not_lt.mp fun hkl => absurd (hltd.mpr hkl) (by omega), hltf.mp hneg⟩

end Clauses

/-- Without indexes there is no index path. -/
theorem indexCandidates_empty (schema : TableSchema) (clause : Option Expression) :
    indexCandidates schema Dict.empty clause = .ok none := by
  unfold indexCandidates
  split
  · simp
  · simp
  · rfl

/-- Both paths, for a clause that selects by key and candidates that cover what
it selects. -/
theorem filterRows_perm {re : RegexMatch} {schema : TableSchema} {n : Str} {expr : Expression}
    {rows : List RowData} {indexes : Dict Str IndexTree} {q : Str → Prop}
    (hnodup : (rows.map (·.rowId)).Nodup)
    (hclause : ∀ row ∈ rows, ∃ k b, indexKey schema n row = some k ∧
      evaluatePredicate re schema row expr = .ok b ∧ (b = true → q k))
    (hcand : indexCandidates schema indexes (some expr) = .ok none ∨
      ∃ ids, indexCandidates schema indexes (some expr) = .ok (some ids) ∧ ids.Nodup ∧
        ∀ row ∈ rows, ∀ k, indexKey schema n row = some k → q k → row.rowId ∈ ids) :
    ∃ found scanned used, filterRows re rows (some expr) schema indexes = .ok (found, used) ∧
      filterRows re rows (some expr) schema Dict.empty = .ok (scanned, false) ∧
      found.Perm scanned := by
  -- the clause as a predicate of rows
  let p : RowData → Bool := fun row =>
    decide (evaluatePredicate re schema row expr = .ok true)
  have hp : ∀ row ∈ rows, passes re schema (some expr) row = .ok (p row) := by
    intro row hrow
    obtain ⟨_, b, -, hb, -⟩ := hclause row hrow
    cases b <;> simp [passes, p, hb]
  have hnone : indexCandidates schema Dict.empty (some expr) = .ok none :=
    indexCandidates_empty schema (some expr)
  have hscan : filterRows re rows (some expr) schema Dict.empty
      = .ok (rows.filter p, false) := by
    rw [filterRows, hnone, Result.ok_bind, filterScan_eq hp]
    rfl
  rcases hcand with hcand | ⟨ids, hcand, hids, hcover⟩
  · refine ⟨_, _, false, ?_, hscan, List.Perm.refl _⟩
    rw [filterRows, hcand, Result.ok_bind, filterScan_eq hp]
    rfl
  · refine ⟨_, _, true, ?_, hscan, filterCandidates_perm hnodup hids ?_⟩
    · rw [filterRows, hcand, Result.ok_bind]
      dsimp only
      rw [filterCandidates_eq hp]
      rfl
    · intro row hrow hsel
      have htrue : evaluatePredicate re schema row expr = .ok true := of_decide_eq_true hsel
      obtain ⟨k, b, hk, hb, hb'⟩ := hclause row hrow
      obtain rfl : b = true := by simpa [hb] using htrue
      exact hcover row hrow k hk (hb' rfl)

/-- An INDEXED column has a tree, and every row a value and a key in it. -/
theorem indexed_column {d t : Str} {table : TableRuntime} (htab : TableOk d t table) {i : Nat}
    {c : Catalog.ColumnDefinition} (hc : table.schema.columns[i]? = some c)
    (hidx : c.constraint = .indexed) :
    ∃ tree, table.indexes.find? c.name = some tree ∧
      IndexOk table.schema table.heap.rows c.name tree ∧
      ∀ row ∈ table.heap.rows, ∃ v k, row.values[i]? = some v ∧ isNull v = false ∧
        encodeIndexKey v c.type = some k ∧ indexKey table.schema c.name row = some k := by
  have hi := htab.schema.findColumnIndex_eq hc
  have hcol : c.name ∈ indexedColumns table.schema := by
    rw [htab.schema.indexedColumns_eq]
    exact List.mem_map_of_mem (List.mem_filter.mpr ⟨List.mem_of_getElem? hc, by simpa using hidx⟩)
  obtain ⟨tree, htree, hix⟩ := htab.find_index hcol
  refine ⟨tree, htree, hix, ?_⟩
  intro row hrow
  obtain ⟨k, hk⟩ := Option.isSome_iff_exists.mp (hix.keyed row hrow)
  obtain ⟨j, c', v, hj, hc', hv, hnull, henc⟩ := indexKey_eq_some.mp hk
  obtain rfl : i = j := Option.some.inj (hi.symm.trans hj)
  obtain rfl : c = c' := Option.some.inj (hc.symm.trans hc')
  exact ⟨v, k, hv, hnull, henc, hk⟩

/-- **Index path and scan agree.**  In every table of every run, on a clause
that compares an INDEXED column with literals of its type: `FilterRows`
succeeds with the indexes of the table and without them, and the rows are the
same up to their order. -/
theorem index_path_eq_scan {e : DbmsEngine} (h : Reachable e) {s : Store} (hs : StoreOf e s)
    {d t : Str} {db : DatabaseRuntime} {table : TableRuntime}
    (hdb : s.runtime.databases.find? d = some db) (htable : db.tables.find? t = some table)
    {i : Nat} {c : Catalog.ColumnDefinition} (hc : table.schema.columns[i]? = some c)
    (hidx : c.constraint = .indexed) (re : RegexMatch) {literals : List Value}
    {expr : Expression} (hclause : IndexClause c.name literals expr)
    (htyped : ∀ w ∈ literals, isNull w = false ∧ getValueType w = c.type)
    (hwrap : ∀ row ∈ table.heap.rows, ∀ v ∈ row.values[i]?, ∀ w ∈ literals, NoWrap v w) :
    ∃ found scanned used,
      filterRows re table.heap.scanAll (some expr) table.schema table.indexes
        = .ok (found, used) ∧
      filterRows re table.heap.scanAll (some expr) table.schema Dict.empty
        = .ok (scanned, false) ∧
      found.Perm scanned := by
  have htab := (((reachable_ok h).of hs).state d db hdb).tables t table htable
  have hi := htab.schema.findColumnIndex_eq hc
  have hnodup := htab.heap.ordered.nodup
  obtain ⟨tree, htree, hix, hrow⟩ := indexed_column htab hc hidx
  have hliteral : ∀ w ∈ literals, ∃ l, encodeIndexKey w c.type = some l := by
    intro w hw
    exact Option.isSome_iff_exists.mp (encodeIndexKey_isSome (Or.inr (htyped w hw).2))
  show ∃ found scanned used,
      filterRows re table.heap.rows (some expr) table.schema table.indexes = .ok (found, used) ∧ _
  cases hclause with
  | comparison op database tbl w =>
      obtain ⟨l, hl⟩ := hliteral w (by simp)
      have hw := (htyped w (by simp)).1
      have hcand : indexCandidates table.schema table.indexes (some (.binaryComparison op
          (.columnReference database tbl c.name) (.literal w)))
          = comparisonCandidates tree op l := by
        simp [indexCandidates, hi, htree, hc, hl]
      apply filterRows_perm (q := fun k => KeySelected op k l) hnodup
      · intro row hr
        obtain ⟨v, k, hv, hnull, henc, hk⟩ := hrow row hr
        obtain ⟨b, hb, hb'⟩ := evaluatePredicate_comparison re op hi hv hnull hw henc hl
          (hwrap row hr v hv w (by simp)) database tbl
        exact ⟨k, b, hk, hb, hb'⟩
      · rw [hcand]
        exact (comparisonCandidates_spec hix hnodup op l).imp_left And.right
  | between database tbl lower upper =>
      obtain ⟨lk, hlk⟩ := hliteral lower (by simp)
      obtain ⟨uk, huk⟩ := hliteral upper (by simp)
      have hlo := (htyped lower (by simp)).1
      have hup := (htyped upper (by simp)).1
      obtain ⟨ids, hscan, hnd, hmem⟩ := scanRowIds_spec hix hnodup lk uk
      have hcand : indexCandidates table.schema table.indexes (some (.between
          (.columnReference database tbl c.name) (.literal lower) (.literal upper)))
          = .ok (some ids) := by
        simp only [indexCandidates, hi, htree, hc, hlk, huk, hscan, Result.ofOption_some,
          Result.ok_bind]
        rfl
      apply filterRows_perm (q := fun k => lk ≤ k ∧ k < uk) hnodup
      · intro row hr
        obtain ⟨v, k, hv, hnull, henc, hk⟩ := hrow row hr
        obtain ⟨b, hb, hb'⟩ := evaluatePredicate_between re hi hv hnull hlo hup henc hlk huk
          (hwrap row hr v hv lower (by simp)) (hwrap row hr v hv upper (by simp)) database tbl
        exact ⟨k, b, hk, hb, hb'⟩
      · exact Or.inr ⟨ids, hcand, hnd, fun row hr k hk hsel => (hmem row hr).mpr ⟨k, hk, hsel⟩⟩

set_option maxRecDepth 4000 in
/-- `k <= 1` on the indexed column of two rows. -/
theorem index_path_eq_scan_sampleRun :
    ∃ table, storeTable sampleRun.1.store (str "d") (str "t") = some table ∧
      table.heap.rows.length = 2 ∧
      ∃ found scanned used,
        filterRows sampleEnv.regexMatch table.heap.scanAll
          (some (.binaryComparison .lessEqual (.columnReference none none (str "k"))
            (.literal (.int 1)))) table.schema table.indexes = .ok (found, used) ∧
        filterRows sampleEnv.regexMatch table.heap.scanAll
          (some (.binaryComparison .lessEqual (.columnReference none none (str "k"))
            (.literal (.int 1)))) table.schema Dict.empty = .ok (scanned, false) ∧
        found.Perm scanned := by
  have hsome : (storeTable sampleRun.1.store (str "d") (str "t")).isSome = true := by
    decide +kernel
  have hdata : ∀ table ∈ storeTable sampleRun.1.store (str "d") (str "t"),
      table.heap.rows.length = 2 ∧
        table.schema.columns[0]? = some ⟨str "k", .int64, .indexed, none⟩ ∧
        ∀ row ∈ table.heap.rows, ∀ v ∈ row.values[0]?, ∀ w ∈ [Value.int 1], NoWrap v w := by
    decide +kernel
  obtain ⟨table, htable⟩ := Option.isSome_iff_exists.mp hsome
  obtain ⟨db, hdb, ht⟩ := Option.bind_eq_some_iff.mp htable
  obtain ⟨hlength, hcolumn, hwrap⟩ := hdata table htable
  refine ⟨table, htable, hlength, ?_⟩
  exact index_path_eq_scan reachable_sampleRun .committed hdb ht hcolumn rfl
    sampleEnv.regexMatch (.comparison .lessEqual none none (.int 1)) (by simp [getValueType]) hwrap

end CustomDbms.Execution
