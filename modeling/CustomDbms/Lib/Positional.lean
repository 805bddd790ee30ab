/-
  CustomDbms.Lib.Positional
  ─────────────────────────
  **NUMBERS WRITTEN WITH A FIXED NUMBER OF DIGITS.**

  Texts of one length are compared from the front, and so are the digits of a
  number: written to one width, numbers are ordered as their texts.
-/
import Mathlib.Algebra.Group.Nat.Defs
import Mathlib.Data.List.Lex
import Mathlib.Order.Lattice
import Mathlib.Tactic.Common

namespace CustomDbms.Lib

variable {α : Type}

/-- Texts with fronts of one length are compared by their fronts, then by what
follows. -/
theorem append_lt_append_iff [LinearOrder α] {a b x y : List α} (hlen : a.length = b.length) :
    a ++ x < b ++ y ↔ a < b ∨ (a = b ∧ x < y) := by
  induction a generalizing b with
  | nil =>
      obtain rfl : b = [] := List.length_eq_zero_iff.mp hlen.symm
      simp
  | cons c a ih =>
      cases b with
      | nil => cases hlen
      | cons d b =>
          have hlen' : a.length = b.length := Nat.succ.inj hlen
          rw [List.cons_append, List.cons_append, List.cons_lt_cons_iff, List.cons_lt_cons_iff,
            ih hlen', List.cons.injEq]
          tauto

theorem append_left_lt_iff [LinearOrder α] (a : List α) {x y : List α} :
    a ++ x < a ++ y ↔ x < y := by
  rw [append_lt_append_iff rfl]
  simp

/-- The last `width` digits of `n`. -/
def positional (base : Nat) (digit : Nat → α) : Nat → Nat → List α
  | 0, _ => []
  | width + 1, n => positional base digit width (n / base) ++ [digit (n % base)]

theorem length_positional (base : Nat) (digit : Nat → α) (width n : Nat) :
    (positional base digit width n).length = width := by
  induction width generalizing n with
  | zero => rfl
  | succ width ih => rw [positional, List.length_append, ih]; rfl

/-- Numbers are compared by their quotients, then by their remainders. -/
theorem lt_iff_div_mod {base : Nat} (hbase : 0 < base) (n m : Nat) :
    n < m ↔ n / base < m / base ∨ (n / base = m / base ∧ n % base < m % base) := by
  have hn := Nat.div_add_mod n base
  have hm := Nat.div_add_mod m base
  have hmod_n := Nat.mod_lt n hbase
  have hmod_m := Nat.mod_lt m hbase
  rcases lt_trichotomy (n / base) (m / base) with h | h | h
  · have hmul := Nat.mul_le_mul_left base (Nat.succ_le_of_lt h)
    rw [Nat.mul_succ] at hmul
    omega
  · rw [h] at hn ⊢
    omega
  · have hmul := Nat.mul_le_mul_left base (Nat.succ_le_of_lt h)
    rw [Nat.mul_succ] at hmul
    omega

/-- **Numbers of one width are ordered as numbers.** -/
theorem positional_lt [LinearOrder α] {base : Nat} {digit : Nat → α} (hbase : 0 < base)
    (hdigit : ∀ a < base, ∀ b < base, digit a < digit b ↔ a < b) (width : Nat) {n m : Nat}
    (hn : n < base ^ width) (hm : m < base ^ width) :
    (positional base digit width n < positional base digit width m ↔ n < m) ∧
      (positional base digit width n = positional base digit width m ↔ n = m) := by
  induction width generalizing n m with
  | zero =>
      have h0 : n = 0 := by simpa using hn
      have h1 : m = 0 := by simpa using hm
      simp [h0, h1]
  | succ width ih =>
      rw [Nat.pow_succ, Nat.mul_comm] at hn hm
      obtain ⟨hlt, heq⟩ := ih (Nat.div_lt_of_lt_mul hn) (Nat.div_lt_of_lt_mul hm)
      have hlen : (positional base digit width (n / base)).length
          = (positional base digit width (m / base)).length := by
        rw [length_positional, length_positional]
      -- the last digits, as numbers
      have hlast := hdigit (n % base) (Nat.mod_lt n hbase) (m % base) (Nat.mod_lt m hbase)
      have hlast' := hdigit (m % base) (Nat.mod_lt m hbase) (n % base) (Nat.mod_lt n hbase)
      have hlasteq : digit (n % base) = digit (m % base) ↔ n % base = m % base := by
        constructor
        · intro h
          rw [h, iff_false_left (lt_irrefl _)] at hlast
          rw [h, iff_false_left (lt_irrefl _)] at hlast'
          omega
        · intro h
          rw [h]
      rw [positional, positional, append_lt_append_iff hlen, hlt, heq, lt_iff_div_mod hbase n m]
      refine ⟨by simp [List.cons_lt_cons_iff, hlast], ?_⟩
      constructor
      · intro h
        obtain ⟨hfront, hback⟩ := List.append_inj h hlen
        have hdiv := heq.mp hfront
        have hmod := hlasteq.mp (List.cons.inj hback).1
        rw [← Nat.div_add_mod n base, ← Nat.div_add_mod m base, hdiv, hmod]
      · intro h
        rw [h]

end CustomDbms.Lib
