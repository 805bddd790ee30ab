/-
  CustomDbms.Execution.ValueOrder
  ───────────────────────────────
  **ONE ORDER FOR COMPARISONS AND FOR THE INDEX.**

  Three orders meet on the values of one type: the sign of `CompareValues`,
  the byte order of the keys of `EncodeIndexKey`, and the order of the numbers
  and texts themselves.  The last two always agree (`keyOrder_eq`).  The first
  is the sign of a 64-bit difference and agrees exactly where the difference
  fits (`sameOrder_iff`); a set of values without a wrapping pair is the exact
  extent of what follows from one order (`oneOrderOn_iff`):

    • `CompareValues` is a linear order;
    • comparisons and BETWEEN select the keys the scan bounds enclose.
-/
import CustomDbms.Execution.IndexPath

namespace CustomDbms.Execution

open CustomDbms.Common CustomDbms.Core CustomDbms.Parser

/-! ## §1. The three orders of a pair. -/

/-- The order of numbers, and of texts byte by byte. -/
def valueOrder : Value → Value → Ordering
  | .int a, .int b => cmp a.toInt b.toInt
  | .string s, .string t => cmp s t
  | _, _ => .eq

/-- A value a column of this type can hold beside NULL. -/
def OfType (type : ValueType) (v : Value) : Prop := isNull v = false ∧ getValueType v = type

/-- The sign of `CompareValues`, the byte order of the keys and the order of
the values are one. -/
def SameOrder (type : ValueType) (v w : Value) : Prop :=
  ∃ d k l, compareValues v w = some d ∧ encodeIndexKey v type = some k ∧
    encodeIndexKey w type = some l ∧ cmp d 0 = cmp k l ∧ cmp k l = valueOrder v w

section Pairs

variable {type : ValueType} {v w : Value} {k l : Str}

theorem exists_key (h : OfType type v) : ∃ k, encodeIndexKey v type = some k :=
  Option.isSome_iff_exists.mp (encodeIndexKey_isSome (Or.inr h.2))

/-- **Keys are ordered as their values**, over the whole range of integers. -/
theorem keyOrder_eq (hv : OfType type v) (hw : OfType type w)
    (hk : encodeIndexKey v type = some k) (hl : encodeIndexKey w type = some l) :
    cmp k l = valueOrder v w := by
  obtain ⟨hnull, rfl⟩ := hv
  obtain ⟨hnull', htype⟩ := hw
  cases v with
  | null => cases hnull
  | int a =>
      cases w with
      | null => cases hnull'
      | string t => cases htype
      | int b =>
          obtain ⟨-, rfl⟩ := encodeIndexKey_int.mp hk
          obtain ⟨-, rfl⟩ := encodeIndexKey_int.mp hl
          show cmp (str "I" ++ intDigits a) (str "I" ++ intDigits b) = cmp a.toInt b.toInt
          simp only [cmp, cmpUsing, Lib.append_left_lt_iff, (intDigits_lt a b).1,
            (intDigits_lt b a).1]
  | string s =>
      cases w with
      | null => cases hnull'
      | int b => cases htype
      | string t =>
          obtain ⟨-, rfl⟩ := encodeIndexKey_string.mp hk
          obtain ⟨-, rfl⟩ := encodeIndexKey_string.mp hl
          show cmp (str "S" ++ s) (str "S" ++ t) = cmp s t
          simp only [cmp, cmpUsing, Lib.append_left_lt_iff]

/-- A difference that wraps has the wrong sign. -/
theorem toInt_sub_of_wrap {a b : Int64} (h : ¬ NoWrap (.int a) (.int b)) :
    (a.toInt < b.toInt ∧ 0 < (a - b).toInt) ∨ (b.toInt < a.toInt ∧ (a - b).toInt < 0) := by
  have hsub : (a - b).toInt = (a.toInt - b.toInt).bmod (2 ^ 64) := Int64.toInt_sub a b
  have ha := a.toInt_lt
  have ha' := a.le_toInt
  have hb := b.toInt_lt
  have hb' := b.le_toInt
  unfold NoWrap at h
  rw [hsub, Int.bmod_def]
  rcases not_and_or.mp h with hlow | hhigh
  · left
    refine ⟨by omega, ?_⟩
    split <;> omega
  · right
    refine ⟨by omega, ?_⟩
    split <;> omega

/-- Without a wrap the difference and the keys compare alike. -/
theorem signs_of_noWrap (hv : OfType type v) (hw : OfType type w)
    (hk : encodeIndexKey v type = some k) (hl : encodeIndexKey w type = some l)
    (hwrap : NoWrap v w) :
    ∃ d, compareValues v w = some d ∧ (d < 0 ↔ k < l) ∧ (d = 0 ↔ k = l) ∧ (0 < d ↔ l < k) := by
  obtain ⟨d, hd, hlt, heq⟩ := encodeIndexKey_lt hv.1 hw.1 hk hl hwrap
  refine ⟨d, hd, hlt, heq, ?_⟩
  constructor
  · intro hpos
    have hle : l ≤ k := not_lt.mp fun hkl => absurd (hlt.mpr hkl) (by omega)
    exact lt_of_le_of_ne hle fun hkl => absurd (heq.mpr hkl.symm) (by omega)
  · intro hlk
    have hnlt : ¬ d < 0 := fun h => absurd (hlt.mp h) (lt_asymm hlk)
    have hne : ¬ d = 0 := fun h => absurd (heq.mp h) (ne_of_gt hlk)
    omega

/-- **The three orders of a pair are one exactly where the difference does not
wrap.** -/
theorem sameOrder_iff (hv : OfType type v) (hw : OfType type w) :
    SameOrder type v w ↔ NoWrap v w := by
  constructor
  · rintro ⟨d, k, l, hd, -, -, hsign, horder⟩
    by_contra hwrap
    cases v with
    | null => cases hv.1
    | string s => exact hwrap trivial
    | int a =>
        cases w with
        | null => exact hwrap trivial
        | string t => exact hwrap trivial
        | int b =>
            have hd' : (a - b).toInt = d := Option.some.inj hd
            have hcmp : cmp (a - b).toInt 0 = cmp a.toInt b.toInt := by
              rw [hd', hsign, horder]
              rfl
            rcases toInt_sub_of_wrap hwrap with ⟨hlt, hpos⟩ | ⟨hgt, hneg⟩
            · rw [(cmp_eq_lt_iff _ _).mpr hlt, (cmp_eq_gt_iff _ _).mpr hpos] at hcmp
              cases hcmp
            · rw [(cmp_eq_gt_iff _ _).mpr hgt, (cmp_eq_lt_iff _ _).mpr hneg] at hcmp
              cases hcmp
  · intro hwrap
    obtain ⟨k, hk⟩ := exists_key hv
    obtain ⟨l, hl⟩ := exists_key hw
    obtain ⟨d, hd, hlt, -, hgt⟩ := signs_of_noWrap hv hw hk hl hwrap
    refine ⟨d, k, l, hd, hk, hl, ?_, keyOrder_eq hv hw hk hl⟩
    simp only [cmp, cmpUsing, hlt, hgt]

end Pairs

/-! ## §2. What one order gives. -/

/-- `CompareValues(v, w) <= 0`. -/
def AtMost (v w : Value) : Prop := ∃ d, compareValues v w = some d ∧ d ≤ 0

/-- The keys `comparisonCandidates` looks at; `!=` does not use the index. -/
def InScan (op : ComparisonOperator) (k encoded : Str) : Prop :=
  match op with
  | .equal => k = encoded
  | .less | .lessEqual => [] ≤ k ∧ k < encoded ++ [xFF]
  | .greater | .greaterEqual => encoded ≤ k ∧ k < [xFF, xFF, xFF, xFF]
  | .notEqual => True

/-- Comparisons, keys and scans of a set of values follow one order. -/
structure OneOrderOn (type : ValueType) (values : Set Value) : Prop where
  same : ∀ v ∈ values, ∀ w ∈ values, SameOrder type v w
  linear : IsLinearOrder values fun v w => AtMost v w
  comparison : ∀ op, ∀ v ∈ values, ∀ w ∈ values, ∀ d k l, compareValues v w = some d →
    encodeIndexKey v type = some k → encodeIndexKey w type = some l →
      (compareWith op d = true ↔ KeySelected op k l) ∧ (KeySelected op k l → InScan op k l)
  between : ∀ v ∈ values, ∀ lower ∈ values, ∀ upper ∈ values, ∀ k lk uk,
    encodeIndexKey v type = some k → encodeIndexKey lower type = some lk →
      encodeIndexKey upper type = some uk →
        evaluateBetween (some v) (some lower) (some upper) = .ok (decide (lk ≤ k ∧ k < uk))

section Sets

variable {type : ValueType} {values : Set Value} {v w : Value} {k l : Str}

theorem keySelected_inScan (hv : OfType type v) (hk : encodeIndexKey v type = some k)
    (op : ComparisonOperator) (h : KeySelected op k l) : InScan op k l := by
  have hnil : [] ≤ k := le_of_not_gt (List.not_lt_nil k)
  cases op with
  | equal => exact h
  | notEqual => trivial
  | less => exact ⟨hnil, lt_trans h (lt_append_xFF l)⟩
  | lessEqual => exact ⟨hnil, lt_of_le_of_lt h (lt_append_xFF l)⟩
  | greater => exact ⟨le_of_lt h, encodeIndexKey_lt_xFF hv.1 hk⟩
  | greaterEqual => exact ⟨h, encodeIndexKey_lt_xFF hv.1 hk⟩

theorem compareWith_iff {d : Int} (hlt : d < 0 ↔ k < l) (heq : d = 0 ↔ k = l)
    (hgt : 0 < d ↔ l < k) (op : ComparisonOperator) :
    compareWith op d = true ↔ KeySelected op k l := by
  cases op with
  | equal => simpa [compareWith, KeySelected] using heq
  | notEqual => simpa [compareWith, KeySelected] using not_congr heq
  | less => simpa [compareWith, KeySelected] using hlt
  | greater => simpa [compareWith, KeySelected] using hgt
  | lessEqual =>
      have hle : d ≤ 0 ↔ k ≤ l := by rw [← not_lt, hgt, not_lt]
      simpa [compareWith, KeySelected] using hle
  | greaterEqual =>
      have hge : 0 ≤ d ↔ l ≤ k := by rw [← not_lt, hlt, not_lt]
      simpa [compareWith, KeySelected] using hge

/-- `CompareValues(v, w) <= 0` compares keys. -/
theorem atMost_iff (hv : OfType type v) (hw : OfType type w)
    (hk : encodeIndexKey v type = some k) (hl : encodeIndexKey w type = some l)
    (hwrap : NoWrap v w) : AtMost v w ↔ k ≤ l := by
  obtain ⟨d, hd, -, -, hgt⟩ := signs_of_noWrap hv hw hk hl hwrap
  rw [← not_lt, ← hgt, not_lt, AtMost, hd]
  simp

/-- A key belongs to one value. -/
theorem eq_of_key (hv : OfType type v) (hw : OfType type w)
    (hk : encodeIndexKey v type = some k) (hl : encodeIndexKey w type = some k)
    (hwrap : NoWrap v w) : v = w := by
  obtain ⟨d, hd, -, heq, -⟩ := signs_of_noWrap hv hw hk hl hwrap
  apply compareValues_eq_zero.mp
  exact ⟨hv.2.trans hw.2.symm, by rw [hd, heq.mpr rfl]⟩

/-- **`CompareValues` orders a set without a wrapping pair.** -/
theorem linear_of_noWrap (hvalues : ∀ v ∈ values, OfType type v)
    (hwrap : ∀ v ∈ values, ∀ w ∈ values, NoWrap v w) :
    IsLinearOrder values fun v w => AtMost v w := by
  -- the order is that of the keys, pulled back along `EncodeIndexKey`
  have key : ∀ v : values, ∃ k, encodeIndexKey v.1 type = some k :=
    fun v => exists_key (hvalues v.1 v.2)
  choose f hf using key
  have hle : ∀ v w : values, AtMost v.1 w.1 ↔ f v ≤ f w := fun v w =>
    atMost_iff (hvalues v.1 v.2) (hvalues w.1 w.2) (hf v) (hf w) (hwrap v.1 v.2 w.1 w.2)
  refine { refl := ?_, trans := ?_, antisymm := ?_, total := ?_ }
  · intro v
    exact (hle v v).mpr le_rfl
  · intro u v w huv hvw
    exact (hle u w).mpr (le_trans ((hle u v).mp huv) ((hle v w).mp hvw))
  · intro v w hvw hwv
    have hkey : f v = f w := le_antisymm ((hle v w).mp hvw) ((hle w v).mp hwv)
    apply Subtype.ext
    exact eq_of_key (hvalues v.1 v.2) (hvalues w.1 w.2) (hf v) (hkey ▸ hf w)
      (hwrap v.1 v.2 w.1 w.2)
  · intro v w
    rw [hle, hle]
    exact le_total (f v) (f w)

/-- BETWEEN holds on the keys from its lower bound on and below its upper
bound. -/
theorem evaluateBetween_of_noWrap {lower upper : Value} {lk uk : Str} (hv : OfType type v)
    (hlo : OfType type lower) (hup : OfType type upper) (hk : encodeIndexKey v type = some k)
    (hlk : encodeIndexKey lower type = some lk) (huk : encodeIndexKey upper type = some uk)
    (hwl : NoWrap v lower) (hwu : NoWrap v upper) :
    evaluateBetween (some v) (some lower) (some upper) = .ok (decide (lk ≤ k ∧ k < uk)) := by
  obtain ⟨d, hd, hlt, -, -⟩ := signs_of_noWrap hv hlo hk hlk hwl
  obtain ⟨e, he, hlt', -, -⟩ := signs_of_noWrap hv hup hk huk hwu
  have htypes : ¬ (getValueType v ≠ getValueType lower ∨ getValueType v ≠ getValueType upper) := by
    simp [hv.2, hlo.2, hup.2]
  have hge : 0 ≤ d ↔ lk ≤ k := by rw [← not_lt, hlt, not_lt]
  rw [evaluateBetween, if_neg htypes, hd, he]
  show Result.ok (decide (0 ≤ d) && decide (e < 0)) = _
  simp [hge, hlt']

/-- **One order on a set of values of one type: exactly when no difference of
two of them wraps.** -/
theorem oneOrderOn_iff (hvalues : ∀ v ∈ values, OfType type v) :
    OneOrderOn type values ↔ ∀ v ∈ values, ∀ w ∈ values, NoWrap v w := by
  constructor
  · intro h v hv w hw
    exact (sameOrder_iff (hvalues v hv) (hvalues w hw)).mp (h.same v hv w hw)
  · intro hwrap
    refine ⟨?_, linear_of_noWrap hvalues hwrap, ?_, ?_⟩
    · intro v hv w hw
      exact (sameOrder_iff (hvalues v hv) (hvalues w hw)).mpr (hwrap v hv w hw)
    · intro op v hv w hw d k l hd hk hl
      obtain ⟨e, he, hlt, heq, hgt⟩ :=
        signs_of_noWrap (hvalues v hv) (hvalues w hw) hk hl (hwrap v hv w hw)
      obtain rfl : e = d := Option.some.inj (he.symm.trans hd)
      exact ⟨compareWith_iff hlt heq hgt op, keySelected_inScan (hvalues v hv) hk op⟩
    · intro v hv lower hlo upper hup k lk uk hk hlk huk
      exact evaluateBetween_of_noWrap (hvalues v hv) (hvalues lower hlo) (hvalues upper hup) hk
        hlk huk (hwrap v hv lower hlo) (hwrap v hv upper hup)

end Sets

/-- Texts are always in one order: their comparison takes no difference. -/
theorem oneOrderOn_strings :
    (∀ v ∈ Set.range Value.string, OfType .string v) ∧
      OneOrderOn .string (Set.range Value.string) := by
  have hvalues : ∀ v ∈ Set.range Value.string, OfType .string v := by
    rintro v ⟨s, rfl⟩
    exact ⟨rfl, rfl⟩
  refine ⟨hvalues, (oneOrderOn_iff hvalues).mpr ?_⟩
  rintro v ⟨s, rfl⟩ w ⟨t, rfl⟩
  trivial

/-- The least integer compares as greater than one, and its key is the
smaller. -/
theorem least_int_compares_greater :
    compareValues (.int Int64.minValue) (.int 1) = some (2 ^ 63 - 1) ∧
      ¬ SameOrder .int64 (.int Int64.minValue) (.int 1) := by
  have hmin : OfType .int64 (.int Int64.minValue) := ⟨rfl, rfl⟩
  have hone : OfType .int64 (.int 1) := ⟨rfl, rfl⟩
  refine ⟨by decide, ?_⟩
  rw [sameOrder_iff hmin hone]
  decide

end CustomDbms.Execution
