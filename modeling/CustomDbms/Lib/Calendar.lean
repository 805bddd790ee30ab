/-
  CustomDbms.Lib.Calendar
  ───────────────────────
  **DATES OF THE GREGORIAN CALENDAR**, counted in days from 1 January 1970.

  The calendar is given by what the next and the previous day are; a day number
  is a number of such steps.

    • `dateOf_before` — a later day has a later date.
-/
import Mathlib.Data.Int.Order.Basic
import Mathlib.Logic.Function.Iterate
import Mathlib.Tactic.Common

namespace CustomDbms.Lib

/-- A date. -/
structure Date where
  year : Nat
  month : Nat
  day : Nat
  deriving DecidableEq

/-- Every fourth year, except for centuries that 400 does not divide. -/
def isLeap (year : Nat) : Bool :=
  decide (year % 4 = 0) && (decide (year % 100 ≠ 0) || decide (year % 400 = 0))

/-- The number of days of a month. -/
def daysIn (year month : Nat) : Nat :=
  if month = 2 then if isLeap year then 29 else 28
  else if month = 4 ∨ month = 6 ∨ month = 9 ∨ month = 11 then 30
  else 31

theorem daysIn_bounds (year month : Nat) : 28 ≤ daysIn year month ∧ daysIn year month ≤ 31 := by
  unfold daysIn
  split_ifs <;> omega

namespace Date

/-- A date of the calendar. -/
structure Valid (d : Date) : Prop where
  month_pos : 1 ≤ d.month
  month_le : d.month ≤ 12
  day_pos : 1 ≤ d.day
  day_le : d.day ≤ daysIn d.year d.month

/-- The order of dates. -/
def Before (a b : Date) : Prop :=
  a.year < b.year ∨
    (a.year = b.year ∧ (a.month < b.month ∨ (a.month = b.month ∧ a.day < b.day)))

theorem Before.trans {a b c : Date} (hab : a.Before b) (hbc : b.Before c) : a.Before c := by
  unfold Before at *
  omega

theorem Before.year_le {a b : Date} (h : a.Before b) : a.year ≤ b.year := by
  unfold Before at h
  omega

/-- The day after. -/
def next (d : Date) : Date :=
  if d.day < daysIn d.year d.month then ⟨d.year, d.month, d.day + 1⟩
  else if d.month < 12 then ⟨d.year, d.month + 1, 1⟩
  else ⟨d.year + 1, 1, 1⟩

/-- The day before. -/
def prev (d : Date) : Date :=
  if 1 < d.day then ⟨d.year, d.month, d.day - 1⟩
  else if 1 < d.month then ⟨d.year, d.month - 1, daysIn d.year (d.month - 1)⟩
  else ⟨d.year - 1, 12, 31⟩

theorem Valid.next {d : Date} (h : d.Valid) : d.next.Valid := by
  have hmonth := daysIn_bounds d.year (d.month + 1)
  have hyear := daysIn_bounds (d.year + 1) 1
  obtain ⟨hm, hm', hd, hd'⟩ := h
  unfold Date.next
  split_ifs with hday hlast
  · exact ⟨hm, hm', by simp, hday⟩
  · exact ⟨by simp, hlast, Nat.le_refl 1, by simpa using by omega⟩
  · exact ⟨Nat.le_refl 1, by simp, Nat.le_refl 1, by simpa using by omega⟩

theorem Valid.prev {d : Date} (h : d.Valid) : d.prev.Valid := by
  have hmonth := daysIn_bounds d.year (d.month - 1)
  obtain ⟨hm, hm', hd, hd'⟩ := h
  unfold Date.prev
  split_ifs with hday hfirst
  · exact ⟨hm, hm', by simpa using by omega, by simpa using by omega⟩
  · exact ⟨by simpa using by omega, by simpa using by omega, by simpa using by omega,
      Nat.le_refl _⟩
  · exact ⟨by simp, by simp, by simp, by simp [daysIn]⟩

theorem before_next {d : Date} (h : d.Valid) : d.Before d.next := by
  have hmonth := h.month_le
  unfold Before Date.next
  split_ifs <;> simp

theorem prev_year_le (d : Date) : d.prev.year ≤ d.year := by
  unfold Date.prev
  split_ifs <;> simp

theorem prev_before {d : Date} (h : d.Valid) (hyear : 1 ≤ d.year) : d.prev.Before d := by
  obtain ⟨hm, hm', hd, hd'⟩ := h
  unfold Before Date.prev
  split_ifs <;> simp <;> omega

end Date

/-- 1 January 1970. -/
def epoch : Date := ⟨1970, 1, 1⟩

/-- The date of a day: `0` is 1 January 1970. -/
def dateOf : Int → Date
  | .ofNat n => Date.next^[n] epoch
  | .negSucc n => Date.prev^[n + 1] epoch

theorem dateOf_valid (day : Int) : (dateOf day).Valid := by
  have hepoch : epoch.Valid := ⟨by decide, by decide, by decide, by decide⟩
  cases day with
  | ofNat n =>
      show (Date.next^[n] epoch).Valid
      induction n with
      | zero => exact hepoch
      | succ n ih => rw [Function.iterate_succ_apply']; exact ih.next
  | negSucc n =>
      show (Date.prev^[n + 1] epoch).Valid
      induction n with
      | zero => exact hepoch.prev
      | succ n ih => rw [Function.iterate_succ_apply']; exact ih.prev

/-- From 1970 on a day is the next one of the day before. -/
theorem dateOf_next (n : Nat) : dateOf ((n : Int) + 1) = (dateOf n).next :=
  Function.iterate_succ_apply' Date.next n epoch

/-- Before 1970 a day is the previous one of the day after. -/
theorem dateOf_prev (n : Nat) : dateOf (.negSucc n) = (dateOf (.negSucc n + 1)).prev := by
  show Date.prev^[n + 1] epoch = _
  cases n with
  | zero => rfl
  | succ n => exact Function.iterate_succ_apply' Date.prev (n + 1) epoch

theorem dateOf_succ {day : Int} (hyear : 1 ≤ (dateOf day).year) :
    (dateOf day).Before (dateOf (day + 1)) := by
  cases day with
  | ofNat n =>
      have h := Date.before_next (dateOf_valid n)
      rw [← dateOf_next] at h
      exact h
  | negSucc n =>
      have hlast := Date.prev_year_le (dateOf (.negSucc n + 1))
      rw [← dateOf_prev] at hlast
      have h := Date.prev_before (dateOf_valid (.negSucc n + 1)) (by omega)
      rw [← dateOf_prev] at h
      exact h

/-- **A later day has a later date**, from the year 1 on. -/
theorem dateOf_before {i j : Int} (hyear : 1 ≤ (dateOf i).year) (h : i < j) :
    (dateOf i).Before (dateOf j) := by
  obtain ⟨n, rfl⟩ : ∃ n : Nat, j = i + n + 1 := ⟨(j - i - 1).toNat, by omega⟩
  clear h
  induction n with
  | zero =>
      rw [Int.natCast_zero, Int.add_zero]
      exact dateOf_succ hyear
  | succ n ih =>
      rw [Int.natCast_succ, ← Int.add_assoc]
      exact ih.trans (dateOf_succ (Nat.le_trans hyear ih.year_le))

example : dateOf 668 = ⟨1971, 10, 31⟩ := by decide +kernel

end CustomDbms.Lib
