/-
  CustomDbms.Versioning.VersionStore
  ──────────────────────────────────
  **THE CHANGE LOG** (`src/versioning/version_store.cpp`).

  An append-only list of records.  `GenerateTimestamp` reads the system clock;
  the reading is a parameter: `clock n` is the local time when the record with
  number `n` is appended.
-/
import CustomDbms.Catalog.Schema

namespace CustomDbms.Versioning

open CustomDbms.Common CustomDbms.Catalog

/-- `ChangeKind`. -/
inductive ChangeKind where
  | createDatabase | dropDatabase | createTable | dropTable | insertRow | updateRow | deleteRow
  deriving Repr, DecidableEq

/-- `ChangeRecord`. -/
structure ChangeRecord where
  kind : ChangeKind
  databaseName : Str
  tableName : Str
  timestamp : Str
  rowId : RowId
  schema : Option TableSchema
  beforeRow : Option RowData
  afterRow : Option RowData
  deriving DecidableEq

/-- A clock reading in local time: `std::tm` with the microseconds. -/
structure LocalTime where
  year : Nat
  month : Nat
  day : Nat
  hour : Nat
  minute : Nat
  second : Nat
  micros : Nat
  deriving DecidableEq, Inhabited

/-- `std::setw(width) << std::setfill('0')`. -/
def padded (width n : Nat) : Str :=
  List.replicate (width - (natToString n).length) (byte '0') ++ natToString n

/-- `GenerateTimestamp`: `%Y.%m.%d-%H:%M:%S` and six digits of microseconds. -/
def generateTimestamp (now : LocalTime) : Str :=
  natToString now.year ++ str "." ++ padded 2 now.month ++ str "." ++ padded 2 now.day
    ++ str "-" ++ padded 2 now.hour ++ str ":" ++ padded 2 now.minute ++ str ":"
    ++ padded 2 now.second ++ str "." ++ padded 6 now.micros

/-- `VersionStore`. -/
structure VersionStore where
  records : List ChangeRecord
  deriving DecidableEq

namespace VersionStore

/-- The empty log. -/
def empty : VersionStore := ⟨[]⟩

/-- `Append`. -/
def append (clock : Nat → LocalTime) (v : VersionStore) (record : ChangeRecord) : VersionStore :=
  let record' := if record.timestamp = []
    then { record with timestamp := generateTimestamp (clock v.records.length) } else record
  ⟨v.records ++ [record']⟩

/-- `HistoryForTable`. -/
def historyForTable (v : VersionStore) (databaseName tableName : Str) : List ChangeRecord :=
  v.records.filter fun r => decide (r.databaseName = databaseName) &&
    decide (r.tableName = tableName)

/-- The loop that keeps the greatest timestamp. -/
def latestOf : Option Str → List ChangeRecord → Option Str
  | best, [] => best
  | best, r :: rs =>
      match best with
      | none => latestOf (some r.timestamp) rs
      | some b => latestOf (some (if b < r.timestamp then r.timestamp else b)) rs

/-- `LatestTimestampForTable`. -/
def latestTimestampForTable (v : VersionStore) (databaseName tableName : Str) : Option Str :=
  latestOf none (v.historyForTable databaseName tableName)

/-- `LatestTimestampAtOrBefore`. -/
def latestTimestampAtOrBefore (v : VersionStore) (databaseName tableName timestamp : Str) :
    Option Str :=
  latestOf none ((v.historyForTable databaseName tableName).filter
    fun r => decide (r.timestamp ≤ timestamp))

/-- `HasExactTimestampForTable`. -/
def hasExactTimestampForTable (v : VersionStore) (databaseName tableName timestamp : Str) :
    Bool :=
  (v.historyForTable databaseName tableName).any fun r => decide (r.timestamp = timestamp)

end VersionStore

/-! ## §1. The latest timestamp. -/

theorem latestOf_some (b : Str) (rs : List ChangeRecord) :
    ∃ t, VersionStore.latestOf (some b) rs = some t ∧ b ≤ t ∧ ∀ r ∈ rs, r.timestamp ≤ t := by
  induction rs generalizing b with
  | nil => exact ⟨b, rfl, le_refl b, by simp⟩
  | cons r rs ih =>
      obtain ⟨t, ht, hb, hrs⟩ := ih (if b < r.timestamp then r.timestamp else b)
      refine ⟨t, ht, ?_, ?_⟩
      · split at hb
        · rename_i h
          exact le_trans (le_of_lt h) hb
        · exact hb
      · intro x hx
        rcases List.mem_cons.mp hx with rfl | hx
        · split at hb
          · exact hb
          · rename_i h
            exact le_trans (not_lt.mp h) hb
        · exact hrs x hx

/-- The greatest timestamp of some records is the timestamp of one of them. -/
theorem latestOf_mem {best : Option Str} {rs : List ChangeRecord} {ts : Str}
    (h : VersionStore.latestOf best rs = some ts) :
    best = some ts ∨ ∃ r ∈ rs, r.timestamp = ts := by
  induction rs generalizing best with
  | nil => exact .inl h
  | cons r rs ih =>
      have hlater : (∃ x ∈ rs, x.timestamp = ts) → ∃ x ∈ r :: rs, x.timestamp = ts := by
        rintro ⟨x, hx, hts⟩
        exact ⟨x, List.mem_cons_of_mem _ hx, hts⟩
      cases best with
      | none =>
          rcases ih h with heq | hmem
          · exact .inr ⟨r, List.mem_cons_self .., Option.some.inj heq⟩
          · exact .inr (hlater hmem)
      | some b =>
          rcases ih h with heq | hmem
          · split at heq
            · exact .inr ⟨r, List.mem_cons_self .., Option.some.inj heq⟩
            · exact .inl heq
          · exact .inr (hlater hmem)

theorem le_latestOf {rs : List ChangeRecord} {ts : Str}
    (h : VersionStore.latestOf none rs = some ts) : ∀ r ∈ rs, r.timestamp ≤ ts := by
  cases rs with
  | nil => simp
  | cons r rs =>
      obtain ⟨t', ht', hb, hrs⟩ := latestOf_some r.timestamp rs
      obtain rfl : ts = t' := Option.some.inj (h.symm.trans ht')
      intro x hx
      rcases List.mem_cons.mp hx with rfl | hx
      · exact hb
      · exact hrs x hx

theorem latestOf_isSome {rs : List ChangeRecord} (h : rs ≠ []) :
    (VersionStore.latestOf none rs).isSome := by
  obtain ⟨r, rs, rfl⟩ := List.exists_cons_of_ne_nil h
  obtain ⟨t', ht', -⟩ := latestOf_some r.timestamp rs
  exact Option.isSome_iff_exists.mpr ⟨t', ht'⟩

/-- **No record of a table is later than its latest timestamp.** -/
theorem le_latestTimestamp {v : VersionStore} {d t ts : Str}
    (h : v.latestTimestampForTable d t = some ts) :
    ∀ r ∈ v.historyForTable d t, r.timestamp ≤ ts :=
  le_latestOf h

/-- A table with a history has a latest timestamp. -/
theorem latestTimestamp_isSome {v : VersionStore} {d t : Str}
    (h : v.historyForTable d t ≠ []) : (v.latestTimestampForTable d t).isSome :=
  latestOf_isSome h

/-- **Between the latest timestamp up to a given one and that one there is no
record.** -/
theorem latestTimestampAtOrBefore_le {v : VersionStore} {d t bound ts : Str}
    (h : v.latestTimestampAtOrBefore d t bound = some ts) :
    ts ≤ bound ∧ ∀ r ∈ v.historyForTable d t, r.timestamp ≤ bound → r.timestamp ≤ ts := by
  constructor
  · obtain hnone | ⟨r, hr, rfl⟩ := latestOf_mem h
    · cases hnone
    · exact of_decide_eq_true (List.mem_filter.mp hr).2
  · intro r hr hle
    exact le_latestOf h r (List.mem_filter.mpr ⟨hr, decide_eq_true hle⟩)

theorem latestTimestampAtOrBefore_isSome {v : VersionStore} {d t bound : Str} {r : ChangeRecord}
    (hr : r ∈ v.historyForTable d t) (hle : r.timestamp ≤ bound) :
    (v.latestTimestampAtOrBefore d t bound).isSome :=
  latestOf_isSome (List.ne_nil_of_mem (List.mem_filter.mpr ⟨hr, decide_eq_true hle⟩))

theorem historyForTable_append {clock : Nat → LocalTime} {v : VersionStore} {r : ChangeRecord}
    (d t : Str) :
    (v.append clock r).historyForTable d t = v.historyForTable d t ++
      if r.databaseName = d ∧ r.tableName = t
      then [if r.timestamp = [] then
        { r with timestamp := generateTimestamp (clock v.records.length) } else r]
      else [] := by
  unfold VersionStore.historyForTable VersionStore.append
  rw [List.filter_append]
  congr 1
  by_cases hts : r.timestamp = [] <;> by_cases hd : r.databaseName = d <;>
    by_cases ht : r.tableName = t <;> simp [hts, hd, ht]

end CustomDbms.Versioning
