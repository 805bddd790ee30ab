/-
  CustomDbms.Versioning.TimestampOrder
  ────────────────────────────────────
  **TIMESTAMPS ARE LOCAL TIMES** (`VersionStore::Append`,
  `GenerateTimestamp`).

  `localtime_r` shows UTC plus the offset of the zone, and the text has a fixed
  width for each field, so timestamps are ordered as the local clock.  Where the
  offset is set back by more than the time since the last event, the clock on
  the wall goes back and the log with it.

    • `generateTimestamp_lt` — the order of timestamps is that of local times;
    • `timestamps_inOrder_iff` — a log is in order exactly where the local time
      never goes back from one event to the next.
-/
import CustomDbms.Lib.Calendar
import CustomDbms.Lib.Positional
import CustomDbms.Parser.Lexer
import CustomDbms.Versioning.VersionStore
import Mathlib.Data.List.Induction

namespace CustomDbms.Versioning

open CustomDbms.Common CustomDbms.Lib CustomDbms.Parser

/-! ## §1. Local time. -/

/-- The seconds of a reading of the system clock: `to_time_t`.  A reading is the
time since 1970 in nanoseconds. -/
def utcSeconds (reading : Nat) : Nat := reading / 1000000000

/-- The microseconds of a reading, as `GenerateTimestamp` takes them. -/
def microsOf (reading : Nat) : Nat := reading % 1000000000 / 1000

/-- The offset of the zone from UTC in seconds, at each second of UTC. -/
abbrev Zone := Nat → Int

/-- The seconds the local clock shows, counted from 1 January 1970. -/
def localSeconds (zone : Zone) (reading : Nat) : Int :=
  utcSeconds reading + zone (utcSeconds reading)

/-- `localtime_r`, with the microseconds of the reading. -/
def localtime (zone : Zone) (reading : Nat) : LocalTime :=
  let date := dateOf (localSeconds zone reading / 86400)
  let time := (localSeconds zone reading % 86400).toNat
  { year := date.year, month := date.month, day := date.day,
    hour := time / 3600, minute := time / 60 % 60, second := time % 60,
    micros := microsOf reading }

/-- The microseconds the local clock shows. -/
def localMicros (zone : Zone) (reading : Nat) : Int :=
  localSeconds zone reading * 1000000 + microsOf reading

/-- A year of four digits. -/
def FourDigits (year : Nat) : Prop := 1000 ≤ year ∧ year ≤ 9999

instance (year : Nat) : Decidable (FourDigits year) := inferInstanceAs (Decidable (_ ∧ _))

/-! ## §2. Fields of fixed width. -/

/-- A decimal digit. -/
def decimalDigit (n : Nat) : Byte := Fin.ofNat 256 (n + 48)

theorem decimalDigits_append (fuel n : Nat) (acc : Str) :
    decimalDigits fuel n acc = decimalDigits fuel n [] ++ acc := by
  induction fuel generalizing n acc with
  | zero => rfl
  | succ fuel ih =>
      rw [decimalDigits, decimalDigits]
      by_cases h : n / 10 = 0
      · simp [h]
      · rw [if_neg h, if_neg h, ih, ih (n / 10) [_]]
        simp

theorem decimalDigits_fuel {fuel fuel' n : Nat} (acc : Str) (h : n < fuel) (h' : n < fuel') :
    decimalDigits fuel n acc = decimalDigits fuel' n acc := by
  induction fuel generalizing fuel' n acc with
  | zero => omega
  | succ fuel ih =>
      obtain ⟨k, rfl⟩ : ∃ k, fuel' = k + 1 := ⟨fuel' - 1, by omega⟩
      rw [decimalDigits, decimalDigits]
      by_cases h0 : n / 10 = 0
      · rw [if_pos h0, if_pos h0]
      · rw [if_neg h0, if_neg h0]
        exact ih _ (by omega) (by omega)

/-- The last digit of a number behind the others. -/
theorem natToString_step (n : Nat) :
    natToString n = (if n / 10 = 0 then [] else natToString (n / 10)) ++ [decimalDigit (n % 10)] := by
  unfold natToString
  rw [decimalDigits]
  by_cases h : n / 10 = 0
  · rw [if_pos h, if_pos h]
    rfl
  · rw [if_neg h, if_neg h, decimalDigits_append,
      decimalDigits_fuel [] (show n / 10 < n by omega) (Nat.lt_succ_self (n / 10))]
    rfl

theorem positional_zero (width : Nat) :
    positional 10 decimalDigit width 0 = List.replicate width (byte '0') := by
  induction width with
  | zero => rfl
  | succ width ih =>
      rw [positional, Nat.zero_div, ih, List.replicate_succ']
      rfl

/-- **A number that fits is padded to its width.** -/
theorem padded_eq (width : Nat) {n : Nat} (h : n < 10 ^ (width + 1)) :
    padded (width + 1) n = positional 10 decimalDigit (width + 1) n := by
  induction width generalizing n with
  | zero =>
      have hn : n / 10 = 0 := by omega
      rw [padded, natToString_step, if_pos hn]
      rfl
  | succ width ih =>
      rw [padded, natToString_step, positional]
      by_cases hn : n / 10 = 0
      · rw [if_pos hn, hn, positional_zero, ← List.append_assoc]
        simp
      · have hdiv : n / 10 < 10 ^ (width + 1) := by
          rw [Nat.pow_succ, Nat.mul_comm] at h
          exact Nat.div_lt_of_lt_mul h
        rw [if_neg hn, ← ih hdiv, padded, ← List.append_assoc]
        simp [Nat.add_sub_add_right]

theorem decimalDigit_lt : ∀ a < 10, ∀ b < 10, decimalDigit a < decimalDigit b ↔ a < b := by
  decide

theorem natToString_year {year : Nat} (h : FourDigits year) :
    natToString year = positional 10 decimalDigit 4 year := by
  obtain ⟨hlo, hhi⟩ := h
  have hlength : (natToString year).length = 4 := by
    rw [natToString_step, if_neg (by omega), natToString_step, if_neg (by omega),
      natToString_step, if_neg (by omega), natToString_step, if_pos (by omega)]
    rfl
  rw [← padded_eq 3 (by omega), padded, hlength]
  rfl

/-- A field, what separates it from the rest, and the rest. -/
theorem field_lt {width n m : Nat} (hn : n < 10 ^ (width + 1)) (hm : m < 10 ^ (width + 1))
    (sep : Str) (x y : Str) :
    positional 10 decimalDigit (width + 1) n ++ (sep ++ x)
        < positional 10 decimalDigit (width + 1) m ++ (sep ++ y) ↔
      n < m ∨ (n = m ∧ x < y) := by
  obtain ⟨hlt, heq⟩ := positional_lt (by decide) decimalDigit_lt (width + 1) hn hm
  rw [append_lt_append_iff (by rw [length_positional, length_positional]), append_left_lt_iff,
    hlt, heq]

/-- The fields fit into their widths. -/
structure LocalTime.Fits (t : LocalTime) : Prop where
  year : FourDigits t.year
  month : t.month < 100
  day : t.day < 100
  hour : t.hour < 100
  minute : t.minute < 100
  second : t.second < 100
  micros : t.micros < 1000000

/-- The order of local times. -/
def LocalTime.Before (a b : LocalTime) : Prop :=
  a.year < b.year ∨ (a.year = b.year ∧ (a.month < b.month ∨ (a.month = b.month ∧
    (a.day < b.day ∨ (a.day = b.day ∧ (a.hour < b.hour ∨ (a.hour = b.hour ∧
      (a.minute < b.minute ∨ (a.minute = b.minute ∧ (a.second < b.second ∨
        (a.second = b.second ∧ a.micros < b.micros)))))))))))

theorem generateTimestamp_eq {t : LocalTime} (h : t.Fits) :
    generateTimestamp t = positional 10 decimalDigit 4 t.year ++ (str "." ++
      (positional 10 decimalDigit 2 t.month ++ (str "." ++
      (positional 10 decimalDigit 2 t.day ++ (str "-" ++
      (positional 10 decimalDigit 2 t.hour ++ (str ":" ++
      (positional 10 decimalDigit 2 t.minute ++ (str ":" ++
      (positional 10 decimalDigit 2 t.second ++ (str "." ++
      positional 10 decimalDigit 6 t.micros))))))))))) := by
  unfold generateTimestamp
  rw [natToString_year h.year, padded_eq 1 h.month, padded_eq 1 h.day, padded_eq 1 h.hour,
    padded_eq 1 h.minute, padded_eq 1 h.second, padded_eq 5 h.micros]
  simp only [List.append_assoc]

/-- **Timestamps are ordered field by field.** -/
theorem generateTimestamp_before {a b : LocalTime} (ha : a.Fits) (hb : b.Fits) :
    generateTimestamp a < generateTimestamp b ↔ a.Before b := by
  have hyear : ∀ {y : Nat}, FourDigits y → y < 10 ^ (3 + 1) := fun h =>
    Nat.lt_succ_of_le h.2
  rw [generateTimestamp_eq ha, generateTimestamp_eq hb, field_lt (hyear ha.year) (hyear hb.year),
    field_lt ha.month hb.month, field_lt ha.day hb.day, field_lt ha.hour hb.hour,
    field_lt ha.minute hb.minute, field_lt ha.second hb.second,
    (positional_lt (by decide) decimalDigit_lt 6 ha.micros hb.micros).1]
  rfl

/-! ## §3. Timestamps and the local clock. -/

theorem fits_localtime {zone : Zone} {reading : Nat}
    (hyear : FourDigits (localtime zone reading).year) : (localtime zone reading).Fits := by
  have hvalid := dateOf_valid (localSeconds zone reading / 86400)
  have hdays := daysIn_bounds (dateOf (localSeconds zone reading / 86400)).year
    (dateOf (localSeconds zone reading / 86400)).month
  have hday := hvalid.day_le
  have hmonth := hvalid.month_le
  have htime : (localSeconds zone reading % 86400).toNat < 86400 := by omega
  refine ⟨hyear, ?_, ?_, ?_, ?_, ?_, ?_⟩
  · show (dateOf (localSeconds zone reading / 86400)).month < 100
    omega
  · show (dateOf (localSeconds zone reading / 86400)).day < 100
    omega
  · show (localSeconds zone reading % 86400).toNat / 3600 < 100
    omega
  · show (localSeconds zone reading % 86400).toNat / 60 % 60 < 100
    omega
  · show (localSeconds zone reading % 86400).toNat % 60 < 100
    omega
  · show reading % 1000000000 / 1000 < 1000000
    omega

/-- A later local time has a later calendar time. -/
theorem localtime_before {zone : Zone} {a b : Nat} (hyear : FourDigits (localtime zone a).year)
    (h : localMicros zone a < localMicros zone b) :
    (localtime zone a).Before (localtime zone b) := by
  have hyear' : 1 ≤ (dateOf (localSeconds zone a / 86400)).year :=
    Nat.le_trans (by decide) hyear.1
  have ha : microsOf a < 1000000 := by unfold microsOf; omega
  have hb : microsOf b < 1000000 := by unfold microsOf; omega
  unfold localMicros at h
  unfold LocalTime.Before localtime
  dsimp only
  rcases lt_trichotomy (localSeconds zone a / 86400) (localSeconds zone b / 86400) with
    hday | hday | hday
  · -- another day
    have hdate := dateOf_before hyear' hday
    unfold Date.Before at hdate
    omega
  · -- the same day: the time of the day decides
    rw [hday]
    omega
  · omega

theorem localtime_eq {zone : Zone} {a b : Nat} (h : localMicros zone a = localMicros zone b) :
    localtime zone a = localtime zone b := by
  have ha : microsOf a < 1000000 := by unfold microsOf; omega
  have hb : microsOf b < 1000000 := by unfold microsOf; omega
  unfold localMicros at h
  have hseconds : localSeconds zone a = localSeconds zone b := by omega
  have hmicros : microsOf a = microsOf b := by omega
  unfold localtime
  rw [hseconds, hmicros]

/-- **The order of timestamps is that of local times.** -/
theorem generateTimestamp_le {zone : Zone} {a b : Nat}
    (ha : FourDigits (localtime zone a).year) (hb : FourDigits (localtime zone b).year) :
    generateTimestamp (localtime zone a) ≤ generateTimestamp (localtime zone b) ↔
      localMicros zone a ≤ localMicros zone b := by
  have hfits := fits_localtime ha
  have hfits' := fits_localtime hb
  rcases lt_trichotomy (localMicros zone a) (localMicros zone b) with h | h | h
  · have hlt := (generateTimestamp_before hfits hfits').mpr (localtime_before ha h)
    exact iff_of_true (le_of_lt hlt) (le_of_lt h)
  · rw [localtime_eq h, h]
    exact iff_of_true (le_refl _) (le_refl _)
  · have hlt := (generateTimestamp_before hfits' hfits).mpr (localtime_before hb h)
    exact iff_of_false (not_le.mpr hlt) (not_le.mpr h)

/-! ## §4. The log. -/

/-- A log made by `Append`. -/
def appended (clock : Nat → LocalTime) (records : List ChangeRecord) : VersionStore :=
  records.foldl (fun v r => v.append clock r) VersionStore.empty

/-- The timestamps never fall, so that the events of a table up to any `T` are
the first ones of its history. -/
structure InOrder (v : VersionStore) : Prop where
  nondecreasing : v.records.Pairwise fun r s => r.timestamp ≤ s.timestamp
  first_ones : ∀ d t timestamp : Str,
    (v.historyForTable d t).filter (fun r => decide (r.timestamp ≤ timestamp))
      = (v.historyForTable d t).takeWhile fun r => decide (r.timestamp ≤ timestamp)

/-- What `Append` makes of the record with number `n`. -/
def stamped (clock : Nat → LocalTime) (n : Nat) (r : ChangeRecord) : ChangeRecord :=
  if r.timestamp = [] then { r with timestamp := generateTimestamp (clock n) } else r

theorem records_appended (clock : Nat → LocalTime) (records : List ChangeRecord) :
    (appended clock records).records = records.mapIdx (stamped clock) := by
  induction records using List.reverseRecOn with
  | nil => rfl
  | append_singleton records r ih =>
      have hlength : (appended clock records).records.length = records.length := by
        rw [ih, List.length_mapIdx]
      have hfold : appended clock (records ++ [r]) = (appended clock records).append clock r := by
        rw [appended, List.foldl_append]
        rfl
      rw [hfold, List.mapIdx_concat, ← ih, ← hlength]
      rfl

theorem takeWhile_eq_filter {records : List ChangeRecord} (timestamp : Str)
    (h : records.Pairwise fun r s => r.timestamp ≤ s.timestamp) :
    records.filter (fun r => decide (r.timestamp ≤ timestamp))
      = records.takeWhile fun r => decide (r.timestamp ≤ timestamp) := by
  induction h with
  | nil => rfl
  | @cons r records hlater _ ih =>
      by_cases hr : r.timestamp ≤ timestamp
      · rw [List.filter_cons_of_pos (by simpa using hr),
          List.takeWhile_cons_of_pos (by simpa using hr), ih]
      · have hnone : records.filter (fun s => decide (s.timestamp ≤ timestamp)) = [] := by
          refine List.filter_eq_nil_iff.mpr ?_
          intro s hs
          have hle := hlater s hs
          simpa using lt_of_lt_of_le (not_le.mp hr) hle
        rw [List.filter_cons_of_neg (by simpa using hr),
          List.takeWhile_cons_of_neg (by simpa using hr), hnone]

/-- From one event to the next the local clock never goes back. -/
def NeverBack (zone : Zone) (readings : Nat → Nat) (count : Nat) : Prop :=
  ∀ i, i + 1 < count → localMicros zone (readings i) ≤ localMicros zone (readings (i + 1))

theorem NeverBack.le {zone : Zone} {readings : Nat → Nat} {count i j : Nat}
    (h : NeverBack zone readings count) (hij : i ≤ j) (hj : j < count) :
    localMicros zone (readings i) ≤ localMicros zone (readings j) := by
  induction j, hij using Nat.le_induction with
  | base => exact le_refl _
  | succ j _ ih => exact le_trans (ih (by omega)) (h j hj)

/-- **A log is in order** exactly where the local clock never goes back from one
event to the next: where the offset of the zone is never set back by more than
the time elapsed in between. -/
theorem timestamps_inOrder_iff (zone : Zone) (readings : Nat → Nat)
    {records : List ChangeRecord} (hempty : ∀ r ∈ records, r.timestamp = [])
    (hyears : ∀ i < records.length, FourDigits (localtime zone (readings i)).year) :
    InOrder (appended (fun i => localtime zone (readings i)) records) ↔
      NeverBack zone readings records.length := by
  have hstamp : ∀ i (hi : i < records.length),
      (stamped (fun i => localtime zone (readings i)) i records[i]).timestamp
        = generateTimestamp (localtime zone (readings i)) := by
    intro i hi
    rw [stamped, if_pos (hempty _ (List.getElem_mem hi))]
  constructor
  · intro h i hi
    have hpair := h.nondecreasing
    rw [records_appended, List.pairwise_iff_getElem] at hpair
    have hle := hpair i (i + 1) (by simpa using by omega) (by simpa using hi) (by omega)
    rw [List.getElem_mapIdx, List.getElem_mapIdx, hstamp i (by omega), hstamp (i + 1) hi] at hle
    exact (generateTimestamp_le (hyears i (by omega)) (hyears (i + 1) hi)).mp hle
  · intro h
    have hpair : (appended (fun i => localtime zone (readings i)) records).records.Pairwise
        fun r s => r.timestamp ≤ s.timestamp := by
      rw [records_appended, List.pairwise_iff_getElem]
      intro i j hi hj hij
      rw [List.length_mapIdx] at hi hj
      rw [List.getElem_mapIdx, List.getElem_mapIdx, hstamp i hi, hstamp j hj]
      exact (generateTimestamp_le (hyears i hi) (hyears j hj)).mpr (h.le (by omega) hj)
    exact ⟨hpair, fun d t timestamp => takeWhile_eq_filter timestamp (hpair.sublist
      (List.filter_sublist ..))⟩

/-- London at the end of British Standard Time: at two o'clock UTC on 31 October
1971 the offset of one hour ends. -/
def london : Zone := fun second => if second < 57722400 then 3600 else 0

/-- Half past one and ten past two UTC of that day: `02:30` and `02:10` on the
local clock. -/
def londonReading (i : Nat) : Nat := if i = 0 then 57720600000000000 else 57723000000000000

/-- An event of a table, before `Append` gives it a timestamp. -/
def unstamped (kind : ChangeKind) : ChangeRecord :=
  ⟨kind, str "d", str "t", [], none, none, none, none⟩

theorem stamped_unstamped (clock : Nat → LocalTime) (n : Nat) (kind : ChangeKind) :
    (stamped clock n (unstamped kind)).timestamp = generateTimestamp (clock n) := rfl

/-- Forty minutes later by UTC, twenty minutes earlier on the wall. -/
theorem summer_time_ends_out_of_order :
    londonReading 0 ≤ londonReading 1 ∧
      (∀ i < 2, FourDigits (localtime london (londonReading i)).year) ∧
      ¬ InOrder (appended (fun i => localtime london (londonReading i))
        [unstamped .createTable, unstamped .insertRow]) := by
  have hyears : ∀ i < 2, FourDigits (localtime london (londonReading i)).year := by
    decide +kernel
  refine ⟨by decide, hyears, ?_⟩
  intro h
  have hpair := h.nondecreasing
  rw [records_appended, List.mapIdx_cons, List.mapIdx_cons] at hpair
  have hle := (List.pairwise_cons.mp hpair).1 _ (List.mem_cons_self ..)
  rw [stamped_unstamped, stamped_unstamped] at hle
  have hback := (generateTimestamp_le (hyears 0 (by decide)) (hyears 1 (by decide))).mp hle
  exact absurd hback (by decide)

/-- Two events within a second, all year the same offset. -/
theorem timestamps_inOrder_iff_utc :
    InOrder (appended (fun i => localtime (fun _ => 0) (i * 1000000))
        [unstamped .createTable, unstamped .insertRow]) ↔
      NeverBack (fun _ => 0) (fun i => i * 1000000) 2 :=
  timestamps_inOrder_iff (fun _ => 0) (fun i => i * 1000000) (by decide) (by decide +kernel)

end CustomDbms.Versioning
